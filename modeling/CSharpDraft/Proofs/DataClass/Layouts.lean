import CSharpDraft.Proofs.DataClass.Clash
import CSharpDraft.Proofs.DataClass.Outcome

/-!
# Two layouts of a document

An object gives the same classes whether it is a document of its own, named after its file, or the only entry of one,
named after its key. They come about in two ways: the class of a document is made first, and the class of an entry is made
once the classes below it are.

* `Parts` : what is planned for an object in either layout, in no order yet;
* `plan_eq_mainFirst_iff`, `plan_eq_mainLast_iff` : a document can be planned exactly if the parts can, and its plan has
  the class of the object first, or last;
* `generate_wrapped` : the two layouts give the same classes, and one of them fails exactly if the other does.
-/

set_option autoImplicit false

namespace CSharpDraft

/-- A namespace that builds still builds with its first class moved behind the others. -/
theorem NamespaceDraft.Builds.move_first {d : Plan.Namespace} {c : Plan.Class} {cs : List Plan.Class} {n : NamespaceDecl}
    (h : NamespaceDraft.Builds { d with classes := c :: cs } n) :
    ∃ m ms, n.classes = m :: ms ∧ ClassDraft.Builds c m ∧
      NamespaceDraft.Builds { d with classes := cs ++ [c] } { n with classes := ms ++ [m] } := by
  obtain ⟨m, ms, hm, hms, hclasses⟩ := List.forall₂_cons_left_iff.mp h.classes
  have haccess := h.classAccess
  rw [hclasses] at haccess
  refine ⟨m, ms, hclasses, hm, h.name, h.usings, List.rel_append hms (.cons hm .nil), h.structs, h.interfaces, h.enums,
    fun c' hc' => haccess c' ?_, h.structAccess, h.interfaceAccess, h.enumAccess⟩
  rw [List.mem_append, List.mem_singleton] at hc'
  exact List.mem_cons.mpr hc'.symm

namespace DataClass

open Traced

/-! ## Plans -/

/-- What is planned for an object with a key: a namespace, the class of the object, and the classes of the objects below
it. -/
structure Parts (config : Config) (key : Text) (entries : List (Text × JsonValue)) where
  space : Plan.Namespace
  main : Plan.Class
  nested : List Plan.Class
  space_eq : emptySpace config = .ok space
  main_eq : (classOf key entries).result = .ok main
  nested_eq : (nestedClasses entries).result = .ok nested

namespace Parts

variable {config : Config} {key : Text} {entries : List (Text × JsonValue)}

def mainFirst (p : Parts config key entries) : Plan.Namespace := { p.space with classes := p.main :: p.nested }

def mainLast (p : Parts config key entries) : Plan.Namespace := { p.space with classes := p.nested ++ [p.main] }

end Parts

section Plans

variable {config : Config} {key name : Text} {entries : List (Text × JsonValue)} {d : Plan.Namespace}

theorem plan_eq_mainFirst_iff (hwraps : wrapsObject entries = false) :
    (plan key entries config).result = .ok d ↔ ∃ p : Parts config key entries, p.mainFirst = d := by
  rw [plan_eq_ok]
  constructor
  · rintro ⟨space, hspace, main, hmain, nested, hnested, rfl⟩
    obtain ⟨c, hc, rfl⟩ := (mainClasses_of_not_wraps hwraps).mp hmain
    exact ⟨⟨space, c, nested, hspace, hc, hnested⟩, rfl⟩
  · rintro ⟨p, rfl⟩
    have hmain := (mainClasses_of_not_wraps hwraps).mpr ⟨p.main, p.main_eq, rfl⟩
    exact ⟨p.space, p.space_eq, [p.main], hmain, p.nested, p.nested_eq, rfl⟩

theorem nestedClasses_wrapped_eq_ok {ds : List Plan.Class} :
    (nestedClasses [(key, .object entries)]).result = .ok ds ↔
      ∃ nested, (nestedClasses entries).result = .ok nested ∧
        ∃ c, (classOf key entries).result = .ok c ∧ nested ++ [c] = ds := by
  simp only [nestedClasses, entryClasses, bind_result, pure_result]
  constructor
  · rintro ⟨_, ⟨nested, hnested, c, hc, rfl⟩, _, rfl, rfl⟩
    exact ⟨nested, hnested, c, hc, (List.append_nil _).symm⟩
  · rintro ⟨nested, hnested, c, hc, rfl⟩
    exact ⟨_, ⟨nested, hnested, c, hc, rfl⟩, [], rfl, List.append_nil _⟩

/-- The only entry of a document is planned like the document would be, with its class last. -/
theorem plan_eq_mainLast_iff :
    (plan name [(key, .object entries)] config).result = .ok d ↔ ∃ p : Parts config key entries, p.mainLast = d := by
  have hwraps : wrapsObject [(key, .object entries)] = true := rfl
  simp only [plan_eq_ok, mainClasses_of_wraps hwraps, nestedClasses_wrapped_eq_ok]
  constructor
  · rintro ⟨space, hspace, _, rfl, _, ⟨nested, hnested, c, hc, rfl⟩, rfl⟩
    exact ⟨⟨space, c, nested, hspace, hc, hnested⟩, rfl⟩
  · rintro ⟨p, rfl⟩
    exact ⟨p.space, p.space_eq, [], rfl, _, ⟨p.nested, p.nested_eq, p.main, p.main_eq, rfl⟩, rfl⟩

end Plans

/-! ## Documents -/

/-- The text of a document is generated exactly if the document can be planned. -/
theorem exists_generate_iff {name contents : Text} {config : Config} {entries : List (Text × JsonValue)}
    (hread : JsonValue.read? contents = some (.object entries)) :
    (∃ text, (generate name contents config).result = .ok text) ↔ ∃ d, (plan name entries config).result = .ok d := by
  constructor
  · rintro ⟨text, htext⟩
    obtain ⟨es, d, n, hes, hplan, -⟩ := generate_result htext
    cases hread.symm.trans hes
    exact ⟨d, hplan⟩
  · rintro ⟨d, hplan⟩
    obtain ⟨n, hn⟩ := exists_builds_of_plan hplan
    exact ⟨_, bind_result.mpr ⟨n, (declare_eq_ok hread).mpr ⟨d, hplan, hn⟩, rfl⟩⟩

/-- An object as a document that has the name `key`, and the same object as the only entry of a document, under the key
`key`. One of them gives a text exactly if the other does. The namespaces declared for them differ in the place of the
object's own class alone: it is the first in the one and the last in the other. -/
theorem generate_wrapped {key name contents contents' : Text} {config : Config} {entries : List (Text × JsonValue)}
    (hread : JsonValue.read? contents = some (.object entries))
    (hobject : ¬ ∃ k inner, entries = [(k, .object inner)])
    (hread' : JsonValue.read? contents' = some (.object [(key, .object entries)])) :
    ((∃ text, (generate key contents config).result = .ok text) ↔
        ∃ text, (generate name contents' config).result = .ok text) ∧
      ∀ text, (generate key contents config).result = .ok text →
        ∃ n main nested, n.classes = main :: nested ∧ main.name = Text.pascal key ∧
          (declare key contents config).result = .ok n ∧ text = NamespaceDecl.render n ∧
          (declare name contents' config).result = .ok { n with classes := nested ++ [main] } ∧
          (generate name contents' config).result = .ok (NamespaceDecl.render { n with classes := nested ++ [main] }) := by
  have hwraps : wrapsObject entries = false := by rwa [← wrapsObject_eq_true, Bool.not_eq_true] at hobject
  constructor
  · rw [exists_generate_iff hread, exists_generate_iff hread']
    simp only [plan_eq_mainFirst_iff hwraps, plan_eq_mainLast_iff]
    constructor
    · rintro ⟨_, p, -⟩
      exact ⟨_, p, rfl⟩
    · rintro ⟨_, p, -⟩
      exact ⟨_, p, rfl⟩
  · intro text htext
    obtain ⟨es, d, n, hes, hplan, hn, rfl⟩ := generate_result htext
    cases hread.symm.trans hes
    obtain ⟨p, rfl⟩ := (plan_eq_mainFirst_iff hwraps).mp hplan
    obtain ⟨main, nested, hclasses, hmain, hmoved⟩ := NamespaceDraft.Builds.move_first hn
    have hdeclare := (declare_eq_ok hread).mpr ⟨_, hplan, hn⟩
    have hdeclare' : (declare name contents' config).result = .ok { n with classes := nested ++ [main] } :=
      (declare_eq_ok hread').mpr ⟨p.mainLast, plan_eq_mainLast_iff.mpr ⟨p, rfl⟩, hmoved⟩
    obtain ⟨_, _, _, -, -, -, rfl⟩ := mirrors_of_classOf p.main_eq hmain
    exact ⟨n, _, nested, hclasses, rfl, hdeclare, rfl, hdeclare', bind_result.mpr ⟨_, hdeclare', rfl⟩⟩

/-- A user with a login, as a document and as the only entry of one. -/
def user : ObjectText where
  contents := "\x7b\"login\": \x7b\"day\": 1\x7d, \"age\": 30\x7d".toList
  entries := [("login".toList, .object [("day".toList, .int 1)]), ("age".toList, .int 30)]
  read := by decide +kernel

/-- The entries of `user` under a key. -/
def wrappedUser : ObjectText where
  contents := "\x7b\"user\": \x7b\"login\": \x7b\"day\": 1\x7d, \"age\": 30\x7d\x7d".toList
  entries := [("user".toList, .object user.entries)]
  read := by decide +kernel

/-- The classes of `user` with their properties. -/
def userNames : NamedDocument where
  contents := user.contents
  names := [("User".toList, ["Age".toList, "Login".toList]), ("Login".toList, ["Day".toList])]
  declared := by decide +kernel

theorem generate_wrapped_user : ∃ n n',
    (declare "user".toList user.contents {}).result = .ok n ∧
    (declare "file".toList wrappedUser.contents {}).result = .ok n' ∧
    classNames n = [("User".toList, ["Age".toList, "Login".toList]), ("Login".toList, ["Day".toList])] ∧
    classNames n' = [("Login".toList, ["Day".toList]), ("User".toList, ["Age".toList, "Login".toList])] := by
  obtain ⟨n, hn, hnames⟩ := userNames.exists_declare
  have hobject : ¬ ∃ k inner, user.entries = [(k, .object inner)] := by
    rintro ⟨k, inner, h⟩
    cases h
  obtain ⟨m, main, nested, hclasses, -, hm, -, hm', -⟩ :=
    (generate_wrapped user.read hobject wrappedUser.read).2 n.render (bind_result.mpr ⟨n, hn, rfl⟩)
  cases hn.symm.trans hm
  refine ⟨n, _, hn, hm', hnames, ?_⟩
  rw [classNames, hclasses, List.map_cons] at hnames
  obtain ⟨hmain, hnested⟩ := List.cons.inj hnames
  rw [classNames, List.map_append, List.map_singleton, hmain, hnested]
  rfl

end DataClass

end CSharpDraft
