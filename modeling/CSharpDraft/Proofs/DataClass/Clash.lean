import CSharpDraft.Proofs.DataClass.Mirror
import Mathlib.Data.List.Nodup

/-!
# Names that meet in the data classes of a document

The classes of a document stand in one namespace, whatever objects they come from, and the keys of an object are different
texts before they become names. What decides about clashes is said about the document alone.

* `Enumerates R ns` : the list `ns` has what `R` gives to each index, each index once; it is free of repetitions exactly
  if no two indices have the same (`Enumerates.nodup_iff`);
* `HasProperty`, `HasClass` : the entries of an object with a property and the objects of a document with a class, with
  the names that their keys give;
* `enumerates_hasProperty`, `forall₂_classPaths` : the properties of a class by the entries of its object, and the classes
  of a document by the paths to its objects;
* `nodup_names_iff` : when the generated names are different. They need not be (`not_nodup_names`).
-/

set_option autoImplicit false

namespace CSharpDraft.DataClass

open List (Forall₂)
open Traced

/-! ## Lists of names by their indices -/

/-- The list has what `R` gives to the indices, each index once and in some order. -/
def Enumerates {ι ν : Type} (R : ι → ν → Prop) (ns : List ν) : Prop :=
  ∃ is : List ι, is.Nodup ∧ (∀ i n, R i n → i ∈ is) ∧ Forall₂ R is ns

theorem nodup_iff_of_forall₂ {ι ν : Type} {R : ι → ν → Prop} (hone : ∀ i n m, R i n → R i m → n = m) {is : List ι}
    {ns : List ν} (h : Forall₂ R is ns) (his : is.Nodup) :
    ns.Nodup ↔ ∀ i ∈ is, ∀ j ∈ is, ∀ n, R i n → R j n → i = j := by
  induction h with
  | nil => simp
  | @cons i n is ns hin hrest ih =>
    obtain ⟨hi, his⟩ := List.nodup_cons.mp his
    have hold : ∀ j ∈ is, R j n → n ∈ ns := by
      intro j hj hjn
      obtain ⟨m, hm, hjm⟩ := forall₂_exists_left hrest.flip j hj
      rw [hone j n m hjn hjm]
      exact hm
    rw [List.nodup_cons, ih his]
    constructor
    · rintro ⟨hn, hdistinct⟩ j hj k hk m hjm hkm
      rcases List.mem_cons.mp hj with rfl | hjOld <;> rcases List.mem_cons.mp hk with rfl | hkOld
      · rfl
      · rw [hone _ m n hjm hin] at hkm
        exact absurd (hold k hkOld hkm) hn
      · rw [hone _ m n hkm hin] at hjm
        exact absurd (hold j hjOld hjm) hn
      · exact hdistinct j hjOld k hkOld m hjm hkm
    · intro hdistinct
      refine ⟨fun hn => ?_, fun j hj k hk => hdistinct j (List.mem_cons_of_mem i hj) k (List.mem_cons_of_mem i hk)⟩
      obtain ⟨j, hj, hjn⟩ := forall₂_exists_left hrest n hn
      have hsame := hdistinct i List.mem_cons_self j (List.mem_cons_of_mem i hj) n hin hjn
      exact hi (hsame ▸ hj)

namespace Enumerates

variable {ι ν : Type} {R S : ι → ν → Prop} {ns ms : List ν}

/-- An enumeration is free of repetitions exactly if no two indices have the same. -/
theorem nodup_iff (h : Enumerates R ns) (hone : ∀ i n m, R i n → R i m → n = m) :
    ns.Nodup ↔ ∀ i j n, R i n → R j n → i = j := by
  obtain ⟨is, his, hall, hlist⟩ := h
  rw [nodup_iff_of_forall₂ hone hlist his]
  constructor
  · exact fun hdistinct i j n hi hj => hdistinct i (hall i n hi) j (hall j n hj) n hi hj
  · exact fun hdistinct i _ j _ n hi hj => hdistinct i j n hi hj

/-- Two enumerations after each other, of indices that are never the same. -/
theorem append (h : Enumerates R ns) (h' : Enumerates S ms) (hapart : ∀ i n m, R i n → ¬ S i m) :
    Enumerates (fun i n => R i n ∨ S i n) (ns ++ ms) := by
  obtain ⟨is, his, hall, hlist⟩ := h
  obtain ⟨js, hjs, hall', hlist'⟩ := h'
  refine ⟨is ++ js, List.nodup_append'.mpr ⟨his, hjs, fun i hi hj => ?_⟩, ?_, ?_⟩
  · obtain ⟨n, -, hn⟩ := forall₂_exists_left hlist.flip i hi
    obtain ⟨m, -, hm⟩ := forall₂_exists_left hlist'.flip i hj
    exact hapart i n m hn hm
  · rintro i n (hn | hn)
    · exact List.mem_append_left js (hall i n hn)
    · exact List.mem_append_right is (hall' i n hn)
  · exact List.rel_append (hlist.imp (fun _ _ => Or.inl)) (hlist'.imp (fun _ _ => Or.inr))

theorem congr (h : Enumerates R ns) (hRS : ∀ i n, R i n ↔ S i n) : Enumerates S ns := by
  obtain ⟨is, his, hall, hlist⟩ := h
  exact ⟨is, his, fun i n hn => hall i n ((hRS i n).mpr hn), hlist.imp (fun i n => (hRS i n).mp)⟩

end Enumerates

/-! ## Properties of an object -/

/-- The entry at a place has a property of the group, with the given name. -/
def HasPropertyIn (g : Group) (entries : List (Text × JsonValue)) (i : Nat) (n : Text) : Prop :=
  ∃ key v t, entries[i]? = some (key, v) ∧ Typed key v g t ∧ n = Text.pascal key

/-- The entry at a place has a property with the given name. -/
def HasProperty (entries : List (Text × JsonValue)) (i : Nat) (n : Text) : Prop := ∃ g, HasPropertyIn g entries i n

theorem HasProperty.unique {entries : List (Text × JsonValue)} {i : Nat} {n m : Text} (h : HasProperty entries i n)
    (h' : HasProperty entries i m) : n = m := by
  obtain ⟨_, key, v, _, hentry, -, rfl⟩ := h
  obtain ⟨_, key', v', _, hentry', -, rfl⟩ := h'
  cases hentry.symm.trans hentry'
  rfl

/-- An entry has a property in one group only. -/
theorem Typed.group_unique {key t u : Text} {v : JsonValue} {g g' : Group} (h : Typed key v g t)
    (h' : Typed key v g' u) : g = g' := by
  cases h with
  | simple h => cases h <;> cases h' <;> rfl
  | object entries =>
    cases h' with
    | simple h => cases h
    | object => rfl
  | array =>
    cases h' with
    | simple h => cases h
    | array => rfl

theorem HasPropertyIn.group_unique {entries : List (Text × JsonValue)} {g g' : Group} {i : Nat} {n m : Text}
    (h : HasPropertyIn g entries i n) (h' : HasPropertyIn g' entries i m) : g = g' := by
  obtain ⟨key, v, t, hentry, htyped, -⟩ := h
  obtain ⟨key', v', u, hentry', htyped', -⟩ := h'
  cases hentry.symm.trans hentry'
  exact htyped.group_unique htyped'

/-- The properties of one group are those of the entries of the group. -/
theorem Selects.enumerates {g : Group} {entries : List (Text × JsonValue)} {ps : List PropertyDecl}
    (h : Selects g entries ps) : Enumerates (HasPropertyIn g entries) (ps.map (·.name)) := by
  induction h with
  | nil =>
    refine ⟨[], List.nodup_nil, ?_, .nil⟩
    rintro i n ⟨key, v, t, hentry, -⟩
    cases hentry
  | @take key t v rest ps htyped _ ih =>
    obtain ⟨is, his, hall, hlist⟩ := ih
    refine ⟨0 :: is.map (· + 1), ?_, ?_, .cons ⟨key, v, t, rfl, htyped, rfl⟩ (List.forall₂_map_left_iff.mpr hlist)⟩
    · rw [List.nodup_cons]
      exact ⟨by simp, his.map (fun _ _ => Nat.succ.inj)⟩
    · intro i n hn
      cases i with
      | zero => exact List.mem_cons_self
      | succ i => exact List.mem_cons_of_mem 0 (List.mem_map_of_mem (hall i n hn))
  | @skip key v rest ps hnot _ ih =>
    obtain ⟨is, his, hall, hlist⟩ := ih
    refine ⟨is.map (· + 1), his.map (fun _ _ => Nat.succ.inj), ?_, List.forall₂_map_left_iff.mpr hlist⟩
    intro i n hn
    cases i with
    | zero =>
      obtain ⟨_, _, t, hentry, htyped, -⟩ := hn
      cases hentry
      exact absurd htyped (hnot t)
    | succ i => exact List.mem_map_of_mem (hall i n hn)

/-- The properties of the class of an object are those of its entries. -/
theorem enumerates_hasProperty {key : Text} {entries : List (Text × JsonValue)} {c : ClassDecl}
    (h : Mirrors key entries c) : Enumerates (HasProperty entries) (c.properties.map (·.name)) := by
  obtain ⟨simple, objects, arrays, hsimple, hobjects, harrays, rfl⟩ := h
  have hfirst := hsimple.enumerates.append hobjects.enumerates (fun i n m hn hm => by cases hn.group_unique hm)
  have hgroups := hfirst.append harrays.enumerates (fun i n m hn hm => by
    rcases hn with hn | hn <;> cases hn.group_unique hm)
  have hall : ∀ i n, HasProperty entries i n ↔
      (HasPropertyIn .simple entries i n ∨ HasPropertyIn .object entries i n) ∨ HasPropertyIn .array entries i n := by
    intro i n
    constructor
    · rintro ⟨g, hg⟩
      cases g with
      | simple => exact Or.inl (Or.inl hg)
      | object => exact Or.inl (Or.inr hg)
      | array => exact Or.inr hg
    · rintro ((hg | hg) | hg) <;> exact ⟨_, hg⟩
  rw [List.map_append, List.map_append]
  exact hgroups.congr (fun i n => (hall i n).symm)

/-! ## Classes of a document -/

/-- A document with the given name and entries has a class for the object at the path: each object below it has one, and
the document itself unless it is one entry that holds an object. -/
def Declares (name : Text) (entries : List (Text × JsonValue)) (path : List Nat) (key : Text)
    (inner : List (Text × JsonValue)) : Prop :=
  Reaches name (.object entries) path key inner ∧ (path = [] → ¬ ∃ k target, entries = [(k, .object target)])

/-- The object at a path has a class with the given name. -/
def HasClass (name : Text) (entries : List (Text × JsonValue)) (path : List Nat) (n : Text) : Prop :=
  ∃ key inner, Declares name entries path key inner ∧ n = Text.pascal key

theorem HasClass.unique {name : Text} {entries : List (Text × JsonValue)} {path : List Nat} {n m : Text}
    (h : HasClass name entries path n) (h' : HasClass name entries path m) : n = m := by
  obtain ⟨key, inner, hdeclares, rfl⟩ := h
  obtain ⟨key', inner', hdeclares', rfl⟩ := h'
  rw [(hdeclares.1.unique hdeclares'.1).1]

/-- The paths to the objects with a class, that of the document first. -/
def classPaths (entries : List (Text × JsonValue)) : List (List Nat) :=
  if wrapsObject entries then objectPaths entries else [] :: objectPaths entries

theorem mem_classPaths {entries : List (Text × JsonValue)} {path : List Nat} (name : Text) :
    path ∈ classPaths entries ↔ ∃ key inner, Declares name entries path key inner := by
  have hbelow : path ∈ objectPaths entries ↔ path ≠ [] ∧ ∃ key inner, Declares name entries path key inner := by
    rw [mem_objectPaths name]
    refine and_congr_right (fun hne => ?_)
    simp only [Declares, hne, false_implies, and_true]
  unfold classPaths
  cases hwraps : wrapsObject entries with
  | true =>
    rw [if_pos rfl, hbelow, and_iff_right_iff_imp]
    rintro ⟨key, inner, -, hmain⟩ hnil
    exact hmain hnil (wrapsObject_eq_true.mp hwraps)
  | false =>
    rw [if_neg Bool.false_ne_true, List.mem_cons, hbelow]
    constructor
    · rintro (rfl | h)
      · refine ⟨name, entries, .here name entries, fun _ hsingle => ?_⟩
        rw [wrapsObject_eq_true.mpr hsingle] at hwraps
        cases hwraps
      · exact h.2
    · intro h
      by_cases hnil : path = []
      · exact Or.inl hnil
      · exact Or.inr ⟨hnil, h⟩

theorem nodup_classPaths (entries : List (Text × JsonValue)) : (classPaths entries).Nodup := by
  have hbelow : (objectPaths entries).Nodup := by
    refine (pairwise_objectPaths entries).imp ?_
    rintro p q hpq rfl
    exact not_postBefore_self p hpq
  unfold classPaths
  split
  · exact hbelow
  · exact List.nodup_cons.mpr ⟨fun h => ne_nil_of_mem_objectPaths h rfl, hbelow⟩

/-- The classes that are built from the plan of a document are those of its objects. -/
theorem forall₂_classPaths {name : Text} {entries : List (Text × JsonValue)} {config : Config} {d : Plan.Namespace}
    {n : NamespaceDecl} (hplan : (plan name entries config).result = .ok d) (hbuilds : NamespaceDraft.Builds d n) :
    Forall₂ (fun path c => ∃ key inner, Declares name entries path key inner ∧ Mirrors key inner c)
      (classPaths entries) n.classes := by
  obtain ⟨mainDraft, nestedDrafts, hclasses, hwraps, hmain, hnested⟩ := plan_result hplan
  have hbuilt := hbuilds.classes
  rw [hclasses] at hbuilt
  obtain ⟨main, nested, hbuiltMain, hbuiltNested, hdeclared⟩ := exists_forall₂_append hbuilt
  have hmirrors := forall₂_mirrors name hnested hbuiltNested
  have hreaches : Forall₂ (fun path c => ∃ key inner, Reaches name (.object entries) path key inner ∧ Mirrors key inner c)
      (classPaths entries) n.classes := by
    rw [hdeclared, classPaths]
    cases hw : wrapsObject entries with
    | true =>
      rw [hwraps hw] at hbuiltMain
      cases hbuiltMain
      exact hmirrors
    | false =>
      obtain ⟨c, rfl, hc⟩ := hmain hw
      obtain ⟨m, ms, hcm, hms, rfl⟩ := List.forall₂_cons_left_iff.mp hbuiltMain
      cases hms
      exact .cons ⟨name, entries, .here name entries, mirrors_of_classOf hc hcm⟩ hmirrors
  have hboth := (List.forall₂_and_left _ _).mpr ⟨fun path hpath => (mem_classPaths name).mp hpath, hreaches⟩
  refine hboth.imp ?_
  rintro path c ⟨⟨key, inner, hdeclares⟩, key', inner', hreaches', hmirror⟩
  obtain ⟨rfl, rfl⟩ := hdeclares.1.unique hreaches'
  exact ⟨key, inner, hdeclares, hmirror⟩

/-- Generated classes have different names exactly if no two objects of the document have a class with one name, and
the properties in each of them exactly if no two entries of an object with a class have a property with one name. -/
theorem nodup_names_iff {name contents text : Text} {config : Config}
    (h : (generate name contents config).result = .ok text) :
    ∃ entries n, JsonValue.read? contents = some (.object entries) ∧ (declare name contents config).result = .ok n ∧
      text = NamespaceDecl.render n ∧
      ((n.classes.map (·.name)).Nodup ↔
        ∀ path path' t, HasClass name entries path t → HasClass name entries path' t → path = path') ∧
      ((∀ c ∈ n.classes, (c.properties.map (·.name)).Nodup) ↔
        ∀ path key inner, Declares name entries path key inner →
          ∀ i j t, HasProperty inner i t → HasProperty inner j t → i = j) := by
  simp only [generate, bind_result, pure_result] at h
  obtain ⟨n, hn, rfl⟩ := h
  obtain ⟨entries, d, hread, hplan, hbuilds⟩ := declare_result hn
  have hlist := forall₂_classPaths hplan hbuilds
  have hdistinct {key : Text} {inner : List (Text × JsonValue)} {c : ClassDecl} (hmirror : Mirrors key inner c) :=
    (enumerates_hasProperty hmirror).nodup_iff (fun _ _ _ => HasProperty.unique)
  refine ⟨entries, n, hread, hn, rfl, ?_, ?_, ?_⟩
  · have hnames : Enumerates (HasClass name entries) (n.classes.map (·.name)) := by
      refine ⟨classPaths entries, nodup_classPaths entries, ?_, List.forall₂_map_right_iff.mpr (hlist.imp ?_)⟩
      · rintro path t ⟨key, inner, hdeclares, -⟩
        exact (mem_classPaths name).mpr ⟨key, inner, hdeclares⟩
      · rintro path c ⟨key, inner, hdeclares, _, _, _, -, -, -, rfl⟩
        exact ⟨key, inner, hdeclares, rfl⟩
    exact hnames.nodup_iff (fun _ _ _ => HasClass.unique)
  · intro hnodup path key inner hdeclares
    have hpath := (mem_classPaths name).mpr ⟨key, inner, hdeclares⟩
    obtain ⟨c, hc, key', inner', hdeclares', hmirror⟩ := forall₂_exists_left hlist.flip path hpath
    obtain ⟨rfl, rfl⟩ := hdeclares.1.unique hdeclares'.1
    exact (hdistinct hmirror).mp (hnodup c hc)
  · intro hapart c hc
    obtain ⟨path, -, key, inner, hdeclares, hmirror⟩ := forall₂_exists_left hlist c hc
    exact (hdistinct hmirror).mpr (hapart path key inner hdeclares)

/-- The names of the classes of a namespace, each with the names of its properties. -/
def classNames (n : NamespaceDecl) : List (Text × List Text) :=
  n.classes.map (fun c => (c.name, c.properties.map (·.name)))

/-- A document with the names of its data classes. -/
structure NamedDocument where
  contents : Text
  names : List (Text × List Text)
  declared : (declare "user".toList contents {}).result.toOption.map classNames = some names

/-- A document with an address at two places, one of which has two spellings of one name. -/
def addressDocument : NamedDocument where
  contents := ("\x7b\"home\": \x7b\"address\": \x7b\"city\": \"a\"\x7d\x7d, " ++
    "\"work\": \x7b\"address\": \x7b\"zip_code\": \"b\", \"zipCode\": 1\x7d\x7d\x7d").toList
  names := [("User".toList, ["Home".toList, "Work".toList]), ("Address".toList, ["City".toList]),
    ("Home".toList, ["Address".toList]), ("Address".toList, ["ZipCode".toList, "ZipCode".toList]),
    ("Work".toList, ["Address".toList])]
  declared := by decide +kernel

theorem NamedDocument.exists_declare (d : NamedDocument) :
    ∃ n, (declare "user".toList d.contents {}).result = .ok n ∧ classNames n = d.names := by
  have hnames := d.declared
  cases h : (declare "user".toList d.contents {}).result with
  | error fault =>
    rw [h] at hnames
    cases hnames
  | ok n =>
    rw [h] at hnames
    exact ⟨n, rfl, Option.some.inj hnames⟩

theorem not_nodup_of_addressDocument {n : NamespaceDecl} (h : classNames n = addressDocument.names) :
    ¬ (n.classes.map (·.name)).Nodup := by
  have hfirst : (classNames n).map (·.1) = n.classes.map (·.name) := List.map_map
  rw [← hfirst, h]
  decide

/-- Two classes of `addressDocument` have one name, so there are two objects in it that have a class with one name. -/
theorem nodup_names_iff_address : ∃ text entries,
    (generate "user".toList addressDocument.contents {}).result = .ok text ∧
    JsonValue.read? addressDocument.contents = some (.object entries) ∧
    ∃ path path' t, HasClass "user".toList entries path t ∧ HasClass "user".toList entries path' t ∧ path ≠ path' := by
  obtain ⟨n, hn, hnames⟩ := addressDocument.exists_declare
  have htext : (generate "user".toList addressDocument.contents {}).result = .ok n.render :=
    bind_result.mpr ⟨n, hn, rfl⟩
  obtain ⟨entries, n', hread, hn', -, hclasses, -⟩ := nodup_names_iff htext
  cases hn.symm.trans hn'
  have hclash := mt hclasses.mpr (not_nodup_of_addressDocument hnames)
  push Not at hclash
  exact ⟨n.render, entries, htext, hread, hclash⟩

/-- Data classes are generated for `addressDocument` although two of them have one name, and so have two properties in
one of them. -/
theorem not_nodup_names : ∃ n,
    (generate "user".toList addressDocument.contents {}).result = .ok (NamespaceDecl.render n) ∧
    (declare "user".toList addressDocument.contents {}).result = .ok n ∧ ¬ (n.classes.map (·.name)).Nodup ∧
    ∃ c ∈ n.classes, ¬ (c.properties.map (·.name)).Nodup := by
  obtain ⟨n, hn, hnames⟩ := addressDocument.exists_declare
  refine ⟨n, bind_result.mpr ⟨n, hn, rfl⟩, hn, not_nodup_of_addressDocument hnames, ?_⟩
  have hmem : ("Address".toList, ["ZipCode".toList, "ZipCode".toList]) ∈ classNames n := by
    rw [hnames]
    decide
  obtain ⟨c, hc, heq⟩ := List.mem_map.mp hmem
  refine ⟨c, hc, ?_⟩
  rw [(Prod.mk.inj heq).2]
  decide

end CSharpDraft.DataClass
