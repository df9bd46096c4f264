import CSharpDraft.Fragment.Grammar
import CSharpDraft.DataClass.Generate
import CSharpDraft.Proofs.DataClass.Document
import CSharpDraft.Proofs.Draft.Checked

/-!
# Data classes mirror their document

* `Traced.bind_result`, `Traced.forEach_result` : the results of traced computations, apart from what they note;
* `selects_of_forEach` : the entries of one group give the properties of that group, and the others none;
* `mirrors_of_classOf` : the class of an object mirrors it;
* `nestedClasses_result` : the classes below an object, one for each path of `objectPaths`. The two functions that list
  them call each other, and the two statements about them are proved together along the document;
* `result_plan`, `declare_eq_ok` : what a plan is put together from, and what is declared for a document;
* `generate_mirrors` : the classes of a whole document.
-/

set_option autoImplicit false

namespace CSharpDraft

open List (Forall₂)

/-! ## Traced results -/

namespace Traced

variable {α β : Type}

theorem result_bind (x : Traced α) (f : α → Traced β) : (x >>= f).result = x.result >>= fun a => (f a).result := by
  change (andThen x f).result = _
  unfold andThen
  cases x.result <;> rfl

theorem result_pure (a : α) : (pure a : Traced α).result = pure a := rfl

theorem bind_result {x : Traced α} {f : α → Traced β} {b : β} :
    (x >>= f).result = .ok b ↔ ∃ a, x.result = .ok a ∧ (f a).result = .ok b := by
  change (andThen x f).result = .ok b ↔ _
  unfold andThen
  cases x.result with
  | error fault => simp
  | ok a => simp

theorem pure_result {a b : α} : (pure a : Traced α).result = .ok b ↔ a = b := by
  change (Except.ok a : Except Fault α) = .ok b ↔ _
  exact Except.ok.injEq a b ▸ Iff.rfl

theorem ofExcept_result {r : Except Fault α} : (ofExcept r).result = r := rfl

theorem forEach_result {f : α → Traced β} {as : List α} {bs : List β} :
    (forEach f as).result = .ok bs ↔ Forall₂ (fun a b => (f a).result = .ok b) as bs := by
  induction as generalizing bs with
  | nil =>
    rw [forEach, pure_result, List.forall₂_nil_left_iff]
    exact eq_comm
  | cons a as ih =>
    simp only [forEach, bind_result, pure_result, List.forall₂_cons_left_iff, ih]
    constructor
    · rintro ⟨b, hb, cs, hcs, rfl⟩
      exact ⟨b, cs, hb, hcs, rfl⟩
    · rintro ⟨b, cs, hb, hcs, rfl⟩
      exact ⟨b, hb, cs, hcs, rfl⟩

end Traced

namespace DataClass

open Traced

/-! ## Types of values -/

theorem simpleType?_eq_some {v : JsonValue} {t : Text} : simpleType? v = some t ↔ SimpleType v t := by
  constructor
  · intro h
    cases v with
    | bool b =>
      cases h
      exact .bool b
    | int i =>
      cases h
      exact .int i
    | real digits =>
      cases h
      exact .real digits
    | string s =>
      cases h
      exact .string s
    | _ => cases h
  · intro h
    cases h <;> rfl

theorem arrayType?_eq_some {items : List JsonValue} {u : Text} :
    arrayType? items = some u ↔ ∃ t, items ≠ [] ∧ (∀ i ∈ items, SimpleType i t) ∧ u = t ++ "[]".toList := by
  cases items with
  | nil => simp [arrayType?]
  | cons item items =>
    simp only [← simpleType?_eq_some, List.forall_mem_cons]
    rw [arrayType?]
    cases hitem : simpleType? item with
    | none => simp
    | some t =>
      by_cases hall : items.all (fun i => simpleType? i == some t) = true
      · have hmem : ∀ i ∈ items, simpleType? i = some t := by simpa using hall
        simp only [if_pos hall, Option.some.injEq]
        constructor
        · rintro rfl
          exact ⟨t, List.cons_ne_nil _ _, ⟨rfl, hmem⟩, rfl⟩
        · rintro ⟨_, -, ⟨rfl, -⟩, rfl⟩
          rfl
      · simp only [if_neg hall, reduceCtorEq, false_iff]
        rintro ⟨_, -, ⟨hsame, hmem⟩, -⟩
        cases hsame
        exact hall (by simpa using hmem)

/-! ## Properties -/

/-- The draft of a property with a type, for an entry with a key. -/
def propertyDraft (typeName key : Text) : Plan.Property := { name := some (Text.pascal key), typeName := some typeName }

theorem property_result {typeName key : Text} {p : Plan.Property} (h : (property typeName key).result = .ok p) :
    p = propertyDraft typeName key := by
  rw [property, ofExcept_result] at h
  simp only [PropertyDraft.create, newMember, Option.isNone_some, Bool.and_self, Bool.false_eq_true, if_false,
    bind_eq_ok, pure_eq_ok, newType, given_eq_ok, nonBlank_eq_ok, Option.getD_some, accessOr] at h
  obtain ⟨m, ⟨t, ⟨t', ht', ht⟩, n, hn, rfl⟩, a, ha, rfl⟩ := h
  cases ht'
  cases ha
  have htype : some typeName = some t := ht.1
  have hname : some (Text.pascal key) = some n := hn.1
  rw [propertyDraft, htype, hname]

theorem eq_of_builds_propertyDraft {typeName key : Text} {p : PropertyDecl}
    (h : PropertyDraft.Builds false (propertyDraft typeName key) p) :
    p = { name := Text.pascal key, typeName } := by
  obtain ⟨hname, htype, haccess, hgetter, hsetter, hsetterAccess, hdefault, hstatic, hsummary, harguments, -⟩ := h
  obtain ⟨name, typeName', access, getter, setter, setterAccess, defaultValue, isStatic, summary, typeArguments⟩ := p
  have hn : some (Text.pascal key) = some name := hname.1
  have ht : some typeName = some typeName' := htype.1
  cases hn
  cases ht
  cases haccess
  cases hgetter
  cases hsetter
  cases hsetterAccess
  cases hdefault
  cases hstatic
  cases hsummary
  cases harguments
  rfl

/-- A pass over the entries that gives a draft exactly for the entries of a group selects the properties of the group. -/
theorem selects_of_forEach {g : Group} {f : Text × JsonValue → Traced (Option Plan.Property)}
    (hsome : ∀ {key v p}, (f (key, v)).result = .ok (some p) → ∃ t, Typed key v g t ∧ p = propertyDraft t key)
    (hnone : ∀ {key v}, (f (key, v)).result = .ok none → ∀ t, ¬ Typed key v g t)
    {entries : List (Text × JsonValue)} {drafts : List (Option Plan.Property)} {ps : List PropertyDecl}
    (hdrafts : Forall₂ (fun e d => (f e).result = .ok d) entries drafts)
    (hps : Forall₂ (PropertyDraft.Builds false) (drafts.filterMap id) ps) : Selects g entries ps := by
  induction hdrafts generalizing ps with
  | nil =>
    cases hps
    exact .nil
  | @cons e d entries drafts hd _ ih =>
    obtain ⟨key, v⟩ := e
    cases d with
    | none =>
      change Forall₂ _ (drafts.filterMap id) ps at hps
      exact .skip (hnone hd) (ih hps)
    | some p =>
      change Forall₂ _ (p :: drafts.filterMap id) ps at hps
      obtain ⟨q, qs, hpq, hqs, rfl⟩ := List.forall₂_cons_left_iff.mp hps
      obtain ⟨t, htyped, rfl⟩ := hsome hd
      rw [eq_of_builds_propertyDraft hpq]
      exact .take htyped (ih hqs)

theorem simpleProperty_some {key : Text} {v : JsonValue} {p : Plan.Property}
    (h : (simpleProperty (key, v)).result = .ok (some p)) : ∃ t, Typed key v .simple t ∧ p = propertyDraft t key := by
  rw [simpleProperty] at h
  cases ht : simpleType? v with
  | none =>
    rw [ht] at h
    cases pure_result.mp h
  | some t =>
    simp only [ht, bind_result, pure_result] at h
    obtain ⟨q, hq, hqp⟩ := h
    cases hqp
    exact ⟨t, .simple (simpleType?_eq_some.mp ht), property_result hq⟩

theorem simpleProperty_none {key : Text} {v : JsonValue} (h : (simpleProperty (key, v)).result = .ok none) (t : Text) :
    ¬ Typed key v .simple t := by
  rintro ⟨htype⟩
  rw [simpleProperty, simpleType?_eq_some.mpr htype] at h
  simp only [bind_result, pure_result] at h
  obtain ⟨_, -, h⟩ := h
  cases h

theorem objectProperty_some {key : Text} {v : JsonValue} {p : Plan.Property}
    (h : (objectProperty (key, v)).result = .ok (some p)) : ∃ t, Typed key v .object t ∧ p = propertyDraft t key := by
  cases v with
  | object entries =>
    simp only [objectProperty, bind_result, pure_result] at h
    obtain ⟨q, hq, hqp⟩ := h
    cases hqp
    exact ⟨_, .object entries, property_result hq⟩
  | _ => cases pure_result.mp h

theorem objectProperty_none {key : Text} {v : JsonValue} (h : (objectProperty (key, v)).result = .ok none) (t : Text) :
    ¬ Typed key v .object t := by
  rintro ⟨entries⟩
  simp only [objectProperty, bind_result, pure_result] at h
  obtain ⟨_, -, h⟩ := h
  cases h

theorem arrayProperty_some {key : Text} {v : JsonValue} {p : Plan.Property}
    (h : (arrayProperty (key, v)).result = .ok (some p)) : ∃ t, Typed key v .array t ∧ p = propertyDraft t key := by
  cases v with
  | array items =>
    rw [arrayProperty] at h
    cases hu : arrayType? items with
    | none =>
      simp only [hu, bind_result, pure_result] at h
      obtain ⟨_, -, h⟩ := h
      cases h
    | some u =>
      simp only [hu, bind_result, pure_result] at h
      obtain ⟨q, hq, hqp⟩ := h
      cases hqp
      obtain ⟨t, hne, hitems, rfl⟩ := arrayType?_eq_some.mp hu
      exact ⟨_, .array hne hitems, property_result hq⟩
  | _ => cases pure_result.mp h

theorem arrayProperty_none {key : Text} {v : JsonValue} (h : (arrayProperty (key, v)).result = .ok none) (t : Text) :
    ¬ Typed key v .array t := by
  intro htyped
  cases htyped with
  | array hne hitems =>
    rw [arrayProperty, arrayType?_eq_some.mpr ⟨_, hne, hitems, rfl⟩] at h
    simp only [bind_result, pure_result] at h
    obtain ⟨_, -, h⟩ := h
    cases h

/-! ## Classes -/

theorem exists_forall₂_append {α β : Type} {R : α → β → Prop} {as as' : List α} {cs : List β}
    (h : Forall₂ R (as ++ as') cs) : ∃ bs bs', Forall₂ R as bs ∧ Forall₂ R as' bs' ∧ cs = bs ++ bs' := by
  induction as generalizing cs with
  | nil => exact ⟨[], cs, .nil, h, rfl⟩
  | cons a as ih =>
    obtain ⟨b, cs, hab, hcs, rfl⟩ := List.forall₂_cons_left_iff.mp h
    obtain ⟨bs, bs', hbs, hbs', rfl⟩ := ih hcs
    exact ⟨b :: bs, bs', .cons hab hbs, hbs', rfl⟩

/-- The draft of an object has the name of its key and the properties of its entries, one group behind the other. -/
theorem classOf_result {key : Text} {entries : List (Text × JsonValue)} {d : Plan.Class}
    (h : (classOf key entries).result = .ok d) :
    ∃ name simple objects arrays, Gives (some (Text.pascal key)) name ∧
      Forall₂ (fun e p => (simpleProperty e).result = .ok p) entries simple ∧
      Forall₂ (fun e p => (objectProperty e).result = .ok p) entries objects ∧
      Forall₂ (fun e p => (arrayProperty e).result = .ok p) entries arrays ∧
      d = { name := some name, properties := (simple ++ objects ++ arrays).filterMap id } := by
  simp only [classOf, bind_result, pure_result, ofExcept_result, ClassDraft.create, newName, bind_eq_ok, pure_eq_ok,
    nonBlank_eq_ok, accessOr, properties, forEach_result] at h
  obtain ⟨_, ⟨_, ⟨n, hn, rfl⟩, a, ha, rfl⟩, _, ⟨ss, hss, os, hos, as, has, rfl⟩, rfl⟩ := h
  cases ha
  exact ⟨n, ss, os, as, hn, hss, hos, has, rfl⟩

/-- The class of an object mirrors it. -/
theorem mirrors_of_classOf {key : Text} {entries : List (Text × JsonValue)} {d : Plan.Class} {c : ClassDecl}
    (h : (classOf key entries).result = .ok d) (hc : ClassDraft.Builds d c) : Mirrors key entries c := by
  obtain ⟨n, ss, os, as, hn, hss, hos, has, rfl⟩ := classOf_result h
  obtain ⟨hname, haccess, hsummary, hbase, hinterfaces, hstatic, htypes, hfields, hproperties, hconstructors, -⟩ := hc
  simp only [List.filterMap_append] at hproperties
  obtain ⟨ps, arrays, hps, harrays, hall⟩ := exists_forall₂_append hproperties
  obtain ⟨simple, objects, hsimple, hobjects, rfl⟩ := exists_forall₂_append hps
  refine ⟨simple, objects, arrays, selects_of_forEach simpleProperty_some simpleProperty_none hss hsimple,
    selects_of_forEach objectProperty_some objectProperty_none hos hobjects,
    selects_of_forEach arrayProperty_some arrayProperty_none has harrays, ?_⟩
  obtain ⟨name, access, summary, baseClass, interfaces, isStatic, fields, properties, constructors, typeParameters⟩ := c
  have hn' : some (Text.pascal key) = some n := hn.1
  have hn'' : some n = some name := hname.1
  cases hn'
  cases hn''
  cases haccess
  cases hsummary
  cases hbase
  cases hinterfaces
  cases hstatic
  cases htypes
  cases hfields
  cases hall
  cases hconstructors
  rfl

/-- The draft is that of the object to which the path leads from the value. -/
def DraftAt (key : Text) (v : JsonValue) (path : List Nat) (d : Plan.Class) : Prop :=
  ∃ k entries, Reaches key v path k entries ∧ (classOf k entries).result = .ok d

/-- The draft is that of the object to which the path leads from the entries, through one of them. -/
def DraftBelow (entries : List (Text × JsonValue)) (path : List Nat) (d : Plan.Class) : Prop :=
  ∃ i rest entry, path = i :: rest ∧ entries[i]? = some entry ∧ DraftAt entry.1 entry.2 rest d

theorem DraftBelow.draftAt {entries : List (Text × JsonValue)} {path : List Nat} {d : Plan.Class}
    (h : DraftBelow entries path d) (key : Text) : DraftAt key (.object entries) path d := by
  obtain ⟨i, rest, entry, rfl, hentry, k, target, hreaches, hclass⟩ := h
  exact ⟨k, target, .inside hentry hreaches, hclass⟩

mutual

theorem entryClasses_result (key : Text) : ∀ {v : JsonValue} {ds : List Plan.Class},
    (entryClasses key v).result = .ok ds → Forall₂ (DraftAt key v) (innerPaths v) ds
  | .object entries, ds, h => by
    simp only [entryClasses, bind_result, pure_result] at h
    obtain ⟨nested, hnested, d, hd, rfl⟩ := h
    rw [innerPaths]
    refine List.rel_append ((nestedClasses_result hnested).imp (fun _ _ h => h.draftAt key)) ?_
    exact .cons ⟨key, entries, .here key entries, hd⟩ .nil
  | .null, ds, h => by
    cases pure_result.mp h
    exact .nil
  | .bool _, ds, h => by
    cases pure_result.mp h
    exact .nil
  | .int _, ds, h => by
    cases pure_result.mp h
    exact .nil
  | .real _, ds, h => by
    cases pure_result.mp h
    exact .nil
  | .string _, ds, h => by
    cases pure_result.mp h
    exact .nil
  | .array _, ds, h => by
    cases pure_result.mp h
    exact .nil

/-- The classes below an object are those of the objects to which the paths lead, in the order of the paths. -/
theorem nestedClasses_result : ∀ {entries : List (Text × JsonValue)} {ds : List Plan.Class},
    (nestedClasses entries).result = .ok ds → Forall₂ (DraftBelow entries) (objectPaths entries) ds
  | [], ds, h => by
    cases pure_result.mp h
    exact .nil
  | (key, v) :: rest, ds, h => by
    simp only [nestedClasses, bind_result, pure_result] at h
    obtain ⟨first, hfirst, others, hothers, rfl⟩ := h
    rw [objectPaths]
    refine List.rel_append ?_ ?_
    · rw [List.forall₂_map_left_iff]
      exact (entryClasses_result key hfirst).imp (fun p d h => ⟨0, p, (key, v), rfl, rfl, h⟩)
    · rw [List.forall₂_map_left_iff]
      refine (nestedClasses_result hothers).imp (fun p d h => ?_)
      obtain ⟨i, q, entry, rfl, hentry, hd⟩ := h
      exact ⟨i + 1, q, entry, rfl, hentry, hd⟩

end

/-! ## Documents -/

theorem wrapsObject_eq_true {entries : List (Text × JsonValue)} :
    wrapsObject entries = true ↔ ∃ key inner, entries = [(key, .object inner)] := by
  match entries with
  | [] => simp [wrapsObject]
  | [(key, v)] => cases v <;> simp [wrapsObject, JsonValue.isObject]
  | e :: f :: rest => simp [wrapsObject]

theorem declare_eq_ok {name contents : Text} {config : Config} {entries : List (Text × JsonValue)}
    (hread : JsonValue.read? contents = some (.object entries)) {n : NamespaceDecl} :
    (declare name contents config).result = .ok n ↔
      ∃ d, (plan name entries config).result = .ok d ∧ NamespaceDraft.Builds d n := by
  rw [declare, hread]
  simp only [bind_result, pure_result, ofExcept_result, NamespaceDraft.build_eq_ok]
  constructor
  · rintro ⟨d, hd, m, hm, _, -, rfl⟩
    exact ⟨d, hd, hm⟩
  · rintro ⟨d, hd, hn⟩
    have hnotes : Forall₂ (fun e u => (Traced.note e).result = .ok u) (buildEvents n) ((buildEvents n).map fun _ => ()) :=
      List.forall₂_map_right_iff.mpr (List.forall₂_same.mpr fun _ _ => rfl)
    exact ⟨d, hd, n, hn, _, forEach_result.mpr hnotes, rfl⟩

/-- What a declared namespace is: one that was built from the plan of a document. -/
theorem declare_result {name contents : Text} {config : Config} {n : NamespaceDecl}
    (h : (declare name contents config).result = .ok n) :
    ∃ entries d, JsonValue.read? contents = some (.object entries) ∧ (plan name entries config).result = .ok d ∧
      NamespaceDraft.Builds d n := by
  have hobject : ∃ entries, JsonValue.read? contents = some (.object entries) := by
    unfold declare at h
    split at h
    · cases h
    · next entries hread => exact ⟨entries, hread⟩
    · cases h
  obtain ⟨entries, hread⟩ := hobject
  obtain ⟨d, hd, hn⟩ := (declare_eq_ok hread).mp h
  exact ⟨entries, d, hread, hd, hn⟩

/-- What a generated text is: the text of a namespace that was declared. -/
theorem generate_result [Fragment.Parser] {name contents text : Text} {config : Config}
    (h : (generate name contents config).result = .ok text) :
    ∃ entries d n, JsonValue.read? contents = some (.object entries) ∧ (plan name entries config).result = .ok d ∧
      NamespaceDraft.Builds d n ∧ text = n.render := by
  simp only [generate, bind_result, pure_result] at h
  obtain ⟨n, hn, rfl⟩ := h
  obtain ⟨entries, d, hread, hd, hbuilds⟩ := declare_result hn
  exact ⟨entries, d, n, hread, hd, hbuilds, rfl⟩

/-- The namespace of a configuration, without classes. -/
def emptySpace (config : Config) : Except Fault Plan.Namespace := do
  let spaceName ← (passed config.spaceName).get?
  let draft : Plan.Namespace ← NamespaceDraft.create (some spaceName)
  let usings ← listedNames .usings (listedUsings config.usings)
  return { draft with usings }

/-- The class of a document itself; there is none for a document that is one entry with an object. -/
def mainClasses (name : Text) (entries : List (Text × JsonValue)) : Traced (List Plan.Class) :=
  if wrapsObject entries then pure [] else do return [← classOf name entries]

theorem mainClasses_of_wraps {name : Text} {entries : List (Text × JsonValue)} (hwraps : wrapsObject entries = true)
    {main : List Plan.Class} : (mainClasses name entries).result = .ok main ↔ [] = main := by
  rw [mainClasses, if_pos hwraps, pure_result]

theorem mainClasses_of_not_wraps {name : Text} {entries : List (Text × JsonValue)}
    (hwraps : wrapsObject entries = false) {main : List Plan.Class} :
    (mainClasses name entries).result = .ok main ↔ ∃ c, (classOf name entries).result = .ok c ∧ [c] = main := by
  simp only [mainClasses, hwraps, Bool.false_eq_true, if_false, bind_result, pure_result]

/-- What a plan is put together from, apart from what is noted on the way. -/
theorem result_plan (name : Text) (entries : List (Text × JsonValue)) (config : Config) :
    (plan name entries config).result = do
      let space ← emptySpace config
      let main ← (mainClasses name entries).result
      let nested ← (nestedClasses entries).result
      return { space with classes := main ++ nested } := by
  unfold plan mainClasses emptySpace
  cases wrapsObject entries with
  | true =>
    simp only [if_true, result_bind, result_pure, ofExcept_result, bind_assoc, pure_bind]
    rfl
  | false =>
    simp only [Bool.false_eq_true, if_false, result_bind, result_pure, ofExcept_result, bind_assoc, pure_bind]
    rfl

theorem plan_eq_ok {name : Text} {entries : List (Text × JsonValue)} {config : Config} {d : Plan.Namespace} :
    (plan name entries config).result = .ok d ↔
      ∃ space, emptySpace config = .ok space ∧ ∃ main, (mainClasses name entries).result = .ok main ∧
        ∃ nested, (nestedClasses entries).result = .ok nested ∧ { space with classes := main ++ nested } = d := by
  simp only [result_plan, bind_eq_ok, pure_eq_ok]

/-- The classes of the plan of a document: that of the document itself, unless it is one entry with an object, and those of
the objects below it. -/
theorem plan_result {name : Text} {entries : List (Text × JsonValue)} {config : Config} {d : Plan.Namespace}
    (h : (plan name entries config).result = .ok d) :
    ∃ main nested, d.classes = main ++ nested ∧ (wrapsObject entries = true → main = []) ∧
      (wrapsObject entries = false → ∃ c, main = [c] ∧ (classOf name entries).result = .ok c) ∧
      Forall₂ (DraftBelow entries) (objectPaths entries) nested := by
  obtain ⟨space, -, main, hmain, nested, hnested, rfl⟩ := plan_eq_ok.mp h
  refine ⟨main, nested, rfl, fun hwraps => ((mainClasses_of_wraps hwraps).mp hmain).symm, fun hwraps => ?_,
    nestedClasses_result hnested⟩
  obtain ⟨c, hc, rfl⟩ := (mainClasses_of_not_wraps hwraps).mp hmain
  exact ⟨c, rfl, hc⟩

/-- The classes built from drafts of the objects at paths mirror these objects. -/
theorem forall₂_mirrors (name : Text) {entries : List (Text × JsonValue)} {paths : List (List Nat)}
    {ds : List Plan.Class} {cs : List ClassDecl} (hds : Forall₂ (DraftBelow entries) paths ds)
    (hcs : Forall₂ ClassDraft.Builds ds cs) :
    Forall₂ (fun path c => ∃ key inner, Reaches name (.object entries) path key inner ∧ Mirrors key inner c) paths cs := by
  induction hds generalizing cs with
  | nil =>
    cases hcs
    exact .nil
  | cons hd _ ih =>
    obtain ⟨c, rest, hc, hrest, rfl⟩ := List.forall₂_cons_left_iff.mp hcs
    obtain ⟨key, inner, hreaches, hclass⟩ := hd.draftAt name
    exact .cons ⟨key, inner, hreaches, mirrors_of_classOf hclass hc⟩ (ih hrest)

/-- The classes that are generated from a document mirror it: the class of the document, unless that is a single entry
with an object, and then one class for each object below it, in post-order. Each class has the properties of the entries
of its object, and the type of a property for an object is the name of a generated class. -/
theorem generate_mirrors [Fragment.Parser] {name contents text : Text} {config : Config}
    (h : (generate name contents config).result = .ok text) :
    ∃ entries n, JsonValue.read? contents = some (.object entries) ∧ text = NamespaceDecl.render n ∧
      (∃ main nested paths, n.classes = main ++ nested ∧
        ((∃ key inner, entries = [(key, .object inner)]) → main = []) ∧
        ((¬ ∃ key inner, entries = [(key, .object inner)]) → ∃ c, main = [c] ∧ Mirrors name entries c) ∧
        paths.Nodup ∧ paths.Pairwise PostBefore ∧
        (∀ path, path ∈ paths ↔ path ≠ [] ∧ ∃ key inner, Reaches name (.object entries) path key inner) ∧
        Forall₂ (fun path c => ∃ key inner, Reaches name (.object entries) path key inner ∧ Mirrors key inner c)
          paths nested) ∧
      ∀ path key inner objects, Reaches name (.object entries) path key inner → Selects .object inner objects →
        ∀ p ∈ objects, ∃ c ∈ n.classes, c.name = p.typeName := by
  obtain ⟨entries, d, n, hread, hplan, hbuilds, rfl⟩ := generate_result h
  obtain ⟨mainDraft, nestedDrafts, hclasses, hwraps, hmain, hnested⟩ := plan_result hplan
  have hbuilt := hbuilds.classes
  rw [hclasses] at hbuilt
  obtain ⟨main, nested, hbuiltMain, hbuiltNested, hdeclared⟩ := exists_forall₂_append hbuilt
  have hmirrors := forall₂_mirrors name hnested hbuiltNested
  have hpairwise := pairwise_objectPaths entries
  have hnodup : (objectPaths entries).Nodup := by
    refine hpairwise.imp ?_
    rintro p q hpq rfl
    exact not_postBefore_self p hpq
  refine ⟨entries, n, hread, rfl, ⟨main, nested, objectPaths entries, hdeclared, fun hsingle => ?_, fun hsingle => ?_,
    hnodup, hpairwise, fun path => mem_objectPaths name, hmirrors⟩, fun path key inner objects hreaches hobjects p hp => ?_⟩
  · rw [hwraps (wrapsObject_eq_true.mpr hsingle)] at hbuiltMain
    cases hbuiltMain
    rfl
  · rw [← wrapsObject_eq_true, Bool.not_eq_true] at hsingle
    obtain ⟨c, rfl, hc⟩ := hmain hsingle
    obtain ⟨m, ms, hcm, hms, rfl⟩ := List.forall₂_cons_left_iff.mp hbuiltMain
    cases hms
    exact ⟨m, rfl, mirrors_of_classOf hc hcm⟩
  · obtain ⟨i, k, target, hentry, htype⟩ := hobjects.typeName_object hp
    have hbelow : Reaches name (.object entries) (path ++ [i]) k target := hreaches.append hentry
    have hmem : path ++ [i] ∈ objectPaths entries := (mem_objectPaths name).mpr ⟨by simp, k, target, hbelow⟩
    obtain ⟨c, hc, k', target', hreaches', hmirror⟩ := forall₂_exists_left hmirrors.flip _ hmem
    obtain ⟨rfl, rfl⟩ := hbelow.unique hreaches'
    obtain ⟨_, _, _, -, -, -, rfl⟩ := hmirror
    exact ⟨_, hdeclared ▸ List.mem_append_right main hc, htype.symm⟩

/-- A document with an object, an array whose items have no type in common, and a simple value. -/
def userDocument : Text :=
  "\x7b\"login\": \x7b\"day\": 1\x7d, \"mixed\": [1, \"a\"], \"age\": 30\x7d".toList

/-- Whether a document has the entries of `userDocument`, with any numbers and texts in them. -/
def isUserDocument : Option JsonValue → Bool
  | some (.object [(k₁, .object [(_, .int _)]), (k₂, .array [.int _, .string _]), (k₃, .int _)]) =>
    k₁ == "login".toList && k₂ == "mixed".toList && k₃ == "age".toList
  | _ => false

/-- The classes of `userDocument` are those of the document and of its object, and the simple value comes first in the
properties of the document's class although it stands last in the document. -/
theorem generate_mirrors_user :
    ∃ text n, (generate "user".toList userDocument {}).result = .ok text ∧ text = NamespaceDecl.render n ∧
      (∃ c ∈ n.classes, c.name = "User".toList ∧ c.properties = [
        { name := "Age".toList, typeName := "int".toList }, { name := "Login".toList, typeName := "Login".toList }]) ∧
      ∃ c ∈ n.classes, c.name = "Login".toList := by
  obtain ⟨text, htext⟩ : ∃ text, (generate "user".toList userDocument {}).result = .ok text := by
    have hok : (generate "user".toList userDocument {}).result.isOk = true := by decide +kernel
    cases h : (generate "user".toList userDocument {}).result with
    | ok text => exact ⟨text, rfl⟩
    | error fault =>
      rw [h] at hok
      cases hok
  obtain ⟨entries, n, hread, hrender, ⟨main, nested, paths, hclasses, -, hmain, -⟩, hdeclared⟩ := generate_mirrors htext
  have hshape : isUserDocument (JsonValue.read? userDocument) = true := by decide +kernel
  rw [hread] at hshape
  unfold isUserDocument at hshape
  split at hshape
  case h_2 => cases hshape
  case h_1 k₁ k v k₂ v₂ t₂ k₃ v₃ heq =>
    cases heq
    simp only [Bool.and_eq_true, beq_iff_eq] at hshape
    obtain ⟨⟨rfl, rfl⟩, rfl⟩ := hshape
    obtain ⟨c, rfl, simple, objects, arrays, hsimple, hobjects, harrays, rfl⟩ := hmain (by rintro ⟨_, _, h⟩; cases h)
    have hlogin := hdeclared [] _ _ objects (.here _ _) hobjects
    obtain ⟨rfl⟩ : simple = [{ name := "Age".toList, typeName := "int".toList }] := by
      rcases hsimple with _ | ⟨⟨⟨⟩⟩, _⟩ | ⟨-, _ | ⟨⟨⟨⟩⟩, _⟩ | ⟨-, _ | ⟨⟨⟨⟩⟩, ⟨⟩⟩ | ⟨hskip, _⟩⟩⟩
      · rfl
      · exact absurd (.simple (.int _)) (hskip _)
    obtain ⟨rfl⟩ : objects = [{ name := "Login".toList, typeName := "Login".toList }] := by
      rcases hobjects with _ | ⟨⟨⟩, _ | ⟨⟨⟩, _⟩ | ⟨-, _ | ⟨⟨⟩, _⟩ | ⟨-, ⟨⟩⟩⟩⟩ | ⟨hskip, _⟩
      · rfl
      · exact absurd (.object _) (hskip _)
    obtain ⟨rfl⟩ : arrays = [] := by
      rcases harrays with _ | ⟨⟨⟩, _⟩ | ⟨-, _ | ⟨_ | _ | ⟨-, hitems⟩, _⟩ | ⟨-, _ | ⟨⟨⟩, _⟩ | ⟨-, ⟨⟩⟩⟩⟩
      · cases hitems _ (List.mem_cons_self ..)
        cases hitems _ (List.mem_cons_of_mem _ (List.mem_cons_self ..))
      · rfl
    exact ⟨text, n, htext, hrender, ⟨_, hclasses ▸ List.mem_append_left _ (List.mem_singleton_self _), rfl, rfl⟩,
      hlogin _ (List.mem_singleton_self _)⟩

end DataClass

end CSharpDraft
