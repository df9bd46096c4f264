import CSharpDraft.Proofs.DataClass.Mirror
import CSharpDraft.Proofs.Draft.Frame
import CSharpDraft.Proofs.Text.Blank

/-!
# When data classes can be generated

* `SucceedsIff x P` : the computation `x` succeeds exactly if `P` holds, and otherwise an argument is at fault; its rules
  (`bind`, `checkEach`, `forEach`) carry both halves through a computation at once;
* `Named`, `ListsUsings` : what the entries of an object and the `using` directives of a configuration have to satisfy;
* `succeedsIff_properties`, `succeedsIff_classOf`, `succeedsIff_nestedClasses`, `succeedsIff_plan` : the condition of each
  part, the last but one by induction along the document;
* `exists_builds_of_plan` : a plan that was made is built, so the checks of the build never fail;
* `generate_succeeds_iff` : the condition for a whole document.
-/

set_option autoImplicit false

namespace CSharpDraft

open List (Forall₂)

/-! ## Computations that fail on bad arguments only -/

/-- Whether a fault lies in an argument: it was left out, or it is blank, or nothing can be done with it. The latter does
not count where all arguments have the type that they are declared with. -/
def Fault.isOfArgument (typed : Bool) : Fault → Bool
  | nullArgument _ => true
  | emptyArgument _ => true
  | unsupported => !typed
  | _ => false

theorem Fault.isOfArgument_unsupported {typed : Bool} (h : typed ≠ true) : unsupported.isOfArgument typed = true := by
  rw [isOfArgument, Bool.eq_false_iff.mpr h, Bool.not_false]

/-- The computation succeeds exactly if `P` holds, and otherwise an argument is at fault. -/
def SucceedsIff {α : Type} (typed : Bool) (x : Except Fault α) (P : Prop) : Prop :=
  match x with
  | .ok _ => P
  | .error fault => ¬ P ∧ fault.isOfArgument typed = true

variable {typed : Bool}

namespace SucceedsIff

variable {α β : Type} {x : Except Fault α} {k : α → Except Fault β} {P Q : Prop}

theorem ok_iff (h : SucceedsIff typed x P) : (∃ a, x = .ok a) ↔ P := by
  cases x with
  | ok a => exact ⟨fun _ => h, fun _ => ⟨a, rfl⟩⟩
  | error fault =>
    constructor
    · rintro ⟨a, hx⟩
      cases hx
    · exact fun hP => absurd hP h.1

theorem isOfArgument (h : SucceedsIff typed x P) {fault : Fault} (hx : x = .error fault) :
    fault.isOfArgument typed = true := by
  subst hx
  exact h.2

theorem congr (h : SucceedsIff typed x P) (hPQ : P ↔ Q) : SucceedsIff typed x Q := propext hPQ ▸ h

theorem pure (a : α) : SucceedsIff typed (Pure.pure a) True := trivial

/-- One computation after the other; what the second asks for may depend on the result of the first. -/
theorem bind_of {R : α → Prop} (h : SucceedsIff typed x P) (hk : ∀ a, x = .ok a → SucceedsIff typed (k a) (R a)) :
    SucceedsIff typed (x >>= k) (∃ a, x = .ok a ∧ R a) := by
  cases x with
  | ok a =>
    refine (hk a rfl).congr ⟨fun hR => ⟨a, rfl, hR⟩, ?_⟩
    rintro ⟨b, hb, hR⟩
    cases hb
    exact hR
  | error fault =>
    refine ⟨?_, h.2⟩
    rintro ⟨a, hx, -⟩
    cases hx

theorem bind (h : SucceedsIff typed x P) (hk : ∀ a, x = .ok a → SucceedsIff typed (k a) Q) :
    SucceedsIff typed (x >>= k) (P ∧ Q) :=
  (h.bind_of hk).congr (by rw [← h.ok_iff, exists_and_right])

theorem checkEach {f : α → Except Fault β} {R : α → Prop} {as : List α} (h : ∀ a ∈ as, SucceedsIff typed (f a) (R a)) :
    SucceedsIff typed (checkEach f as) (∀ a ∈ as, R a) := by
  induction as with
  | nil => exact fun a ha => absurd ha List.not_mem_nil
  | cons a as ih =>
    have hrest := ih (fun b hb => h b (List.mem_cons_of_mem a hb))
    rw [CSharpDraft.checkEach]
    refine ((h a List.mem_cons_self).bind (fun b _ => hrest.bind (fun bs _ => .pure (b :: bs)))).congr ?_
    rw [and_true, List.forall_mem_cons]

theorem traced_bind {x : Traced α} {k : α → Traced β} (h : SucceedsIff typed x.result P)
    (hk : ∀ a, x.result = .ok a → SucceedsIff typed (k a).result Q) : SucceedsIff typed (x >>= k).result (P ∧ Q) := by
  rw [Traced.result_bind]
  exact h.bind hk

theorem traced_map {x : Traced α} (h : SucceedsIff typed x.result P) (f : α → β) :
    SucceedsIff typed (x >>= fun a => Pure.pure (f a)).result P :=
  (h.traced_bind (fun a _ => .pure (f a))).congr (by rw [and_true])

theorem forEach {f : α → Traced β} {R : α → Prop} {as : List α} (h : ∀ a ∈ as, SucceedsIff typed (f a).result (R a)) :
    SucceedsIff typed (Traced.forEach f as).result (∀ a ∈ as, R a) := by
  induction as with
  | nil => exact fun a ha => absurd ha List.not_mem_nil
  | cons a as ih =>
    have hrest := ih (fun b hb => h b (List.mem_cons_of_mem a hb))
    rw [Traced.forEach]
    refine ((h a List.mem_cons_self).traced_bind (fun b _ => hrest.traced_map (b :: ·))).congr ?_
    rw [List.forall_mem_cons]

end SucceedsIff

/-! ## Arguments -/

theorem succeedsIff_nonBlank (argument : String) (t : Text) :
    SucceedsIff typed (nonBlank argument (some t)) (Text.isBlank t = false) := by
  change SucceedsIff typed (failIf (Text.isBlank t) (.emptyArgument argument.toList) >>= fun _ => pure t) _
  cases Text.isBlank t with
  | true => exact ⟨by decide, rfl⟩
  | false => exact rfl

/-- A name that may have been left out. -/
theorem succeedsIff_newName (t : Option Text) : SucceedsIff typed (newName (some t)) (∃ u, Gives t u) := by
  cases t with
  | none =>
    refine ⟨?_, rfl⟩
    rintro ⟨u, h, -⟩
    cases h
  | some t =>
    refine ((succeedsIff_nonBlank "name" t).bind (fun u _ => .pure (some u))).congr ?_
    rw [and_true]
    constructor
    · exact fun h => ⟨t, rfl, h⟩
    · rintro ⟨u, h, hu⟩
      cases h
      exact hu

/-- A namespace for a `using` directive has to be there still when it is trimmed and has lost one semicolon. -/
theorem succeedsIff_usingName (argument : String) (t : Text) :
    SucceedsIff typed (usingName argument (some t)) (Text.isBlank (Text.dropTrailing ';' (Text.trim t)) = false) := by
  have hcut : ∀ u, nonBlank argument (some t) = .ok u →
      SucceedsIff typed (nonBlank argument (some (Text.trimRight (Text.dropTrailing ';' (Text.trim u)))))
        (Text.isBlank (Text.dropTrailing ';' (Text.trim t)) = false) := by
    intro u hu
    have hsame : some t = some u := (nonBlank_eq_ok.mp hu).1
    cases hsame
    rw [← Text.isBlank_trimRight]
    exact succeedsIff_nonBlank argument _
  refine ((succeedsIff_nonBlank argument t).bind hcut).congr ⟨fun h => h.2, fun h => ⟨?_, h⟩⟩
  have htrim := Text.isBlank_of_dropTrailing h
  rw [Text.isBlank_trim] at htrim
  exact htrim

theorem succeedsIff_present {α : Type} (argument : String) (v : Value α) :
    SucceedsIff typed (v.present argument) (v ≠ .nothing) := by
  cases v with
  | nothing => exact ⟨fun h => h rfl, rfl⟩
  | item a =>
    intro h
    cases h
  | other =>
    intro h
    cases h

theorem succeedsIff_get {α : Type} {v : Value α} (hsome : v ≠ .nothing) (htyped : typed = true → v ≠ .other) :
    SucceedsIff typed v.get (∃ a, v = .item a) := by
  cases v with
  | nothing => exact absurd rfl hsome
  | item a => exact ⟨a, rfl⟩
  | other =>
    refine ⟨?_, Fault.isOfArgument_unsupported (fun h => htyped h rfl)⟩
    rintro ⟨a, ha⟩
    cases ha

theorem succeedsIff_get? {α : Type} {v : Value α} (htyped : typed = true → v ≠ .other) :
    SucceedsIff typed v.get? (v ≠ .other) := by
  cases v with
  | nothing =>
    intro h
    cases h
  | item a =>
    intro h
    cases h
  | other => exact ⟨fun h => h rfl, Fault.isOfArgument_unsupported (fun h => htyped h rfl)⟩

theorem forall_mem_iff_exists_map {α β : Type} {f : β → α} {Q : β → Prop} {as : List α} :
    (∀ a ∈ as, ∃ b, a = f b ∧ Q b) ↔ ∃ bs : List β, as = bs.map f ∧ ∀ b ∈ bs, Q b := by
  constructor
  · intro h
    induction as with
    | nil => exact ⟨[], rfl, fun b hb => absurd hb List.not_mem_nil⟩
    | cons a as ih =>
      obtain ⟨⟨b, rfl, hb⟩, hrest⟩ := List.forall_mem_cons.mp h
      obtain ⟨bs, rfl, hbs⟩ := ih hrest
      exact ⟨b :: bs, rfl, List.forall_mem_cons.mpr ⟨hb, hbs⟩⟩
  · rintro ⟨bs, rfl, hbs⟩ a ha
    obtain ⟨b, hb, rfl⟩ := List.mem_map.mp ha
    exact ⟨b, rfl, hbs b hb⟩

/-- A listed namespace is checked once all are known to be given. -/
theorem succeedsIff_collectUsings (argument : String) {b : Bundle Text} (htyped : typed = true → .other ∉ b.items) :
    SucceedsIff typed (b.collectUsings argument) (∃ ts : List Text, b.items = ts.map .item ∧
      ∀ t ∈ ts, Text.isBlank (Text.dropTrailing ';' (Text.trim t)) = false) := by
  have hvalues : SucceedsIff typed (b.values argument) (∀ v ∈ b.items, v ≠ .nothing) :=
    .checkEach (fun v _ => succeedsIff_present argument v)
  have hname : ∀ vs, b.values argument = .ok vs → ∀ v ∈ vs,
      SucceedsIff typed (v.get >>= fun t => usingName argument (some t))
        (∃ t, v = .item t ∧ Text.isBlank (Text.dropTrailing ';' (Text.trim t)) = false) := by
    intro vs hvs v hv
    obtain ⟨rfl, hno⟩ := Bundle.values_eq_ok.mp hvs
    have hget := succeedsIff_get (fun h => hno (h ▸ hv)) (fun h heq => htyped h (heq ▸ hv))
    refine (hget.bind_of (fun t _ => succeedsIff_usingName argument t)).congr ?_
    simp only [Value.get_eq_ok]
  refine (hvalues.bind_of (fun vs hvs => .checkEach (hname vs hvs))).congr ?_
  rw [← forall_mem_iff_exists_map]
  simp only [Bundle.values_eq_ok]
  constructor
  · rintro ⟨_, ⟨rfl, -⟩, h⟩
    exact h
  · intro h
    refine ⟨_, ⟨rfl, fun hmem => ?_⟩, h⟩
    obtain ⟨_, hnothing, -⟩ := h _ hmem
    cases hnothing

namespace DataClass

open Traced

/-! ## Properties -/

/-- Every entry that has a property has a key that is not blank. -/
def Named (entries : List (Text × JsonValue)) : Prop :=
  ∀ key v, (key, v) ∈ entries → (∃ g t, Typed key v g t) → Text.isBlank key = false

theorem isBlank_append_brackets (t : Text) : Text.isBlank (t ++ "[]".toList) = false := by
  rw [Text.isBlank_append]
  exact Bool.and_false _

/-- The type of a property is blank only if it is the class of an object with a blank key. -/
theorem Typed.notBlank {key t : Text} {v : JsonValue} {g : Group} (h : Typed key v g t)
    (hkey : Text.isBlank key = false) : Text.isBlank t = false := by
  cases h with
  | simple h => cases h <;> rfl
  | object entries => rw [Text.isBlank_pascal, hkey]
  | array hne hitems => exact isBlank_append_brackets _

theorem succeedsIff_property (typeName key : Text) :
    SucceedsIff typed (property typeName key).result (Text.isBlank typeName = false ∧ Text.isBlank key = false) := by
  have htype : SucceedsIff typed (newType (some (some typeName))) (Text.isBlank typeName = false) :=
    succeedsIff_nonBlank "type_name" typeName
  have hname : SucceedsIff typed (nonBlank "name" (some (Text.pascal key))) (Text.isBlank key = false) := by
    rw [← Text.isBlank_pascal key]
    exact succeedsIff_nonBlank "name" _
  have hmember : SucceedsIff typed (newMember (some (some typeName)) (some (some (Text.pascal key))))
      (Text.isBlank typeName = false ∧ Text.isBlank key = false) :=
    (htype.bind (fun t _ => hname.bind (fun n _ => .pure (some t, some n)))).congr (by rw [and_true])
  rw [property, ofExcept_result]
  exact (hmember.bind (fun _ _ => .pure _)).congr (by rw [and_true])

/-- An entry with a type has its property exactly if its key is not blank. -/
theorem succeedsIff_of_typed {key t : Text} {v : JsonValue} {g : Group} (h : Typed key v g t) :
    SucceedsIff typed (property t key >>= fun p => pure (some p)).result
      ((∃ u, Typed key v g u) → Text.isBlank key = false) := by
  refine ((succeedsIff_property t key).traced_map some).congr ⟨fun hboth _ => hboth.2, fun hkey => ?_⟩
  exact ⟨h.notBlank (hkey ⟨t, h⟩), hkey ⟨t, h⟩⟩

theorem succeedsIff_of_not_typed {key : Text} {v : JsonValue} {g : Group} (h : ∀ t, ¬ Typed key v g t) :
    SucceedsIff typed (pure none : Traced (Option Plan.Property)).result
      ((∃ u, Typed key v g u) → Text.isBlank key = false) := by
  rintro ⟨u, hu⟩
  exact absurd hu (h u)

theorem succeedsIff_simpleProperty (key : Text) (v : JsonValue) :
    SucceedsIff typed (simpleProperty (key, v)).result ((∃ t, Typed key v .simple t) → Text.isBlank key = false) := by
  rw [simpleProperty]
  cases ht : simpleType? v with
  | some t => exact succeedsIff_of_typed (.simple (simpleType?_eq_some.mp ht))
  | none =>
    refine succeedsIff_of_not_typed (fun t h => ?_)
    obtain ⟨h⟩ := h
    rw [simpleType?_eq_some.mpr h] at ht
    cases ht

theorem succeedsIff_objectProperty (key : Text) (v : JsonValue) :
    SucceedsIff typed (objectProperty (key, v)).result ((∃ t, Typed key v .object t) → Text.isBlank key = false) := by
  cases v with
  | object entries => exact succeedsIff_of_typed (.object entries)
  | _ =>
    refine succeedsIff_of_not_typed (fun t h => ?_)
    cases h

theorem succeedsIff_arrayProperty (key : Text) (v : JsonValue) :
    SucceedsIff typed (arrayProperty (key, v)).result ((∃ t, Typed key v .array t) → Text.isBlank key = false) := by
  cases v with
  | array items =>
    rw [arrayProperty]
    cases ht : arrayType? items with
    | some u =>
      obtain ⟨t, hne, hitems, rfl⟩ := arrayType?_eq_some.mp ht
      exact succeedsIff_of_typed (.array hne hitems)
    | none =>
      refine ((SucceedsIff.pure ()).traced_bind (fun _ _ => succeedsIff_of_not_typed (fun t h => ?_))).congr
        (by rw [true_and])
      cases h with
      | array hne hitems =>
        rw [arrayType?_eq_some.mpr ⟨_, hne, hitems, rfl⟩] at ht
        cases ht
  | _ =>
    refine succeedsIff_of_not_typed (fun t h => ?_)
    cases h

theorem succeedsIff_properties (entries : List (Text × JsonValue)) :
    SucceedsIff typed (properties entries).result (Named entries) := by
  have hsimple : SucceedsIff typed (forEach simpleProperty entries).result _ :=
    .forEach (fun e _ => succeedsIff_simpleProperty e.1 e.2)
  have hobjects : SucceedsIff typed (forEach objectProperty entries).result _ :=
    .forEach (fun e _ => succeedsIff_objectProperty e.1 e.2)
  have harrays : SucceedsIff typed (forEach arrayProperty entries).result _ :=
    .forEach (fun e _ => succeedsIff_arrayProperty e.1 e.2)
  refine (hsimple.traced_bind (fun _ _ => hobjects.traced_bind (fun _ _ => harrays.traced_map _))).congr ?_
  constructor
  · rintro ⟨hs, ho, ha⟩ key v hmem ⟨g, t, htyped⟩
    cases g with
    | simple => exact hs _ hmem ⟨t, htyped⟩
    | object => exact ho _ hmem ⟨t, htyped⟩
    | array => exact ha _ hmem ⟨t, htyped⟩
  · intro hnamed
    refine ⟨?_, ?_, ?_⟩
    · rintro e he ⟨t, ht⟩
      exact hnamed e.1 e.2 he ⟨_, t, ht⟩
    · rintro e he ⟨t, ht⟩
      exact hnamed e.1 e.2 he ⟨_, t, ht⟩
    · rintro e he ⟨t, ht⟩
      exact hnamed e.1 e.2 he ⟨_, t, ht⟩

/-! ## Classes -/

theorem succeedsIff_classOf (key : Text) (entries : List (Text × JsonValue)) :
    SucceedsIff typed (classOf key entries).result (Text.isBlank key = false ∧ Named entries) := by
  have hname : SucceedsIff typed (newName (some (some (Text.pascal key)))) (Text.isBlank key = false) := by
    refine (succeedsIff_newName _).congr ?_
    rw [← Text.isBlank_pascal key]
    constructor
    · rintro ⟨u, hu, hblank⟩
      cases hu
      exact hblank
    · exact fun h => ⟨_, rfl, h⟩
  have hdraft : SucceedsIff typed (ClassDraft.create (some (some (Text.pascal key))) none : Except Fault Plan.Class)
      (Text.isBlank key = false) :=
    (hname.bind (fun _ _ => .pure _)).congr (by rw [and_true])
  exact SucceedsIff.traced_bind hdraft (fun _ _ => (succeedsIff_properties entries).traced_map _)

/-- What a value has to satisfy so that the classes of the objects in it can be drafted. -/
def NamedBelow (key : Text) (v : JsonValue) : Prop :=
  ∀ path k inner, Reaches key v path k inner → Text.isBlank k = false ∧ Named inner

theorem namedBelow_object {key : Text} {entries : List (Text × JsonValue)} :
    NamedBelow key (.object entries) ↔
      (∀ e ∈ entries, NamedBelow e.1 e.2) ∧ Text.isBlank key = false ∧ Named entries := by
  constructor
  · intro h
    refine ⟨fun e he path k inner hreaches => ?_, h [] key entries (.here key entries)⟩
    obtain ⟨i, hi⟩ := List.mem_iff_getElem?.mp he
    exact h (i :: path) k inner (.inside hi hreaches)
  · rintro ⟨hbelow, hhere⟩ path k inner hreaches
    cases hreaches with
    | here => exact hhere
    | inside hentry hreaches => exact hbelow _ (List.mem_of_getElem? hentry) _ k inner hreaches

theorem namedBelow_of_not_isObject {key : Text} {v : JsonValue} (h : v.isObject = false) : NamedBelow key v := by
  intro path k inner hreaches
  cases hreaches <;> cases h

mutual

theorem succeedsIff_entryClasses (key : Text) : ∀ v : JsonValue,
    SucceedsIff typed (entryClasses key v).result (NamedBelow key v)
  | .object entries => by
    rw [entryClasses]
    refine ((succeedsIff_nestedClasses entries).traced_bind (fun nested _ =>
      (succeedsIff_classOf key entries).traced_map (fun c => nested ++ [c]))).congr ?_
    exact namedBelow_object.symm
  | .null => namedBelow_of_not_isObject rfl
  | .bool _ => namedBelow_of_not_isObject rfl
  | .int _ => namedBelow_of_not_isObject rfl
  | .real _ => namedBelow_of_not_isObject rfl
  | .string _ => namedBelow_of_not_isObject rfl
  | .array _ => namedBelow_of_not_isObject rfl

/-- The classes below an object can be drafted exactly if every object there has a key and entries with names. -/
theorem succeedsIff_nestedClasses : ∀ entries : List (Text × JsonValue),
    SucceedsIff typed (nestedClasses entries).result (∀ e ∈ entries, NamedBelow e.1 e.2)
  | [] => fun e he => absurd he List.not_mem_nil
  | (key, v) :: rest => by
    rw [nestedClasses]
    refine ((succeedsIff_entryClasses key v).traced_bind (fun first _ =>
      (succeedsIff_nestedClasses rest).traced_map (fun others => first ++ others))).congr ?_
    rw [List.forall_mem_cons]

end

/-! ## Plans -/

/-- The configured value lists namespaces for `using` directives, in a list, as the keys of an object or as a single text,
and each of them is still there when it is trimmed and has lost one semicolon. -/
def ListsUsings (v : JsonValue) : Prop :=
  ∃ ts : List Text, (v = .array (ts.map .string) ∨ (∃ entries, v = .object entries ∧ ts = entries.map (·.1)) ∨
      ∃ t, v = .string t ∧ ts = [t]) ∧
    ∀ t ∈ ts, Text.isBlank (Text.dropTrailing ';' (Text.trim t)) = false

theorem passed_eq_item {v : JsonValue} {t : Text} : passed v = .item t ↔ v = .string t := by
  cases v <;> simp [passed]

theorem map_passed_eq {items : List JsonValue} {ts : List Text} :
    items.map passed = ts.map .item ↔ items = ts.map .string := by
  induction items generalizing ts with
  | nil => cases ts <;> simp
  | cons v items ih => cases ts <;> simp [passed_eq_item, ih]

theorem items_listedUsings {v : JsonValue} {ts : List Text} :
    (listedUsings v).items = ts.map .item ↔ v = .array (ts.map .string) ∨
      (∃ entries, v = .object entries ∧ ts = entries.map (·.1)) ∨ ∃ t, v = .string t ∧ ts = [t] := by
  cases v with
  | array items => simp [listedUsings, Bundle.items, map_passed_eq]
  | object entries =>
    have hitems : (listedUsings (.object entries)).items = (entries.map (·.1)).map .item := (List.map_map ..).symm
    have hinjective : Function.Injective (Value.item : Text → Value Text) := fun _ _ => Value.item.inj
    rw [hitems, (List.map_injective_iff.mpr hinjective).eq_iff]
    simp [eq_comm]
  | string t =>
    rcases ts with _ | ⟨u, _ | ⟨w, ts⟩⟩
    · simp [listedUsings, Bundle.items]
    · simp [listedUsings, Bundle.items, Passed.value, eq_comm]
    · simp [listedUsings, Bundle.items]
  | _ => cases ts <;> simp [listedUsings, Bundle.items, Passed.value, passed]

/-- Whether a value is a text or `null`. -/
def isText (v : JsonValue) : Bool := passed v != .other

/-- The namespace of the configuration is a text, and so are the namespaces that it lists. Any of them may be `null`. -/
def givesTexts (config : Config) : Bool :=
  isText config.spaceName &&
    match config.usings with
    | .array items => items.all isText
    | v => isText v

theorem passed_ne_other {v : JsonValue} (h : isText v = true) : passed v ≠ .other := bne_iff_ne.mp h

theorem other_not_mem_listedUsings {config : Config} (h : givesTexts config = true) :
    .other ∉ (listedUsings config.usings).items := by
  obtain ⟨-, h⟩ := Bool.and_eq_true_iff.mp h
  cases hv : config.usings with
  | array items =>
    rw [hv] at h
    intro hmem
    obtain ⟨v, hmem, hother⟩ := List.mem_map.mp hmem
    exact passed_ne_other (List.all_eq_true.mp h v hmem) hother
  | _ =>
    rw [hv] at h
    simp_all [isText, passed, listedUsings, Bundle.items, Passed.value]

theorem succeedsIff_usings (config : Config) :
    SucceedsIff (givesTexts config) (listedNames .usings (listedUsings config.usings)) (ListsUsings config.usings) := by
  refine (succeedsIff_collectUsings "usings" other_not_mem_listedUsings).congr ?_
  unfold ListsUsings
  simp only [items_listedUsings]

theorem succeedsIff_emptySpace (config : Config) :
    SucceedsIff (givesTexts config) (emptySpace config)
      ((∃ t, config.spaceName = .string t ∧ Text.isBlank t = false) ∧ ListsUsings config.usings) := by
  have hname : SucceedsIff (givesTexts config) (passed config.spaceName).get? (passed config.spaceName ≠ .other) :=
    succeedsIff_get? (fun h => passed_ne_other (Bool.and_eq_true_iff.mp h).1)
  have hspace : ∀ name, SucceedsIff (givesTexts config)
      (NamespaceDraft.create (some name) : Except Fault Plan.Namespace) (∃ t, Gives name t) := fun name =>
    ((succeedsIff_newName name).bind (fun _ _ => .pure _)).congr (by rw [and_true])
  refine (hname.bind_of (fun name _ => (hspace name).bind (fun _ _ =>
    (succeedsIff_usings config).bind (fun _ _ => .pure _)))).congr ?_
  constructor
  · rintro ⟨name, hget, ⟨t, rfl, ht⟩, hlists, -⟩
    exact ⟨⟨t, passed_eq_item.mp (Value.get?_eq_some.mp hget), ht⟩, hlists⟩
  · rintro ⟨⟨t, hname, ht⟩, hlists⟩
    rw [hname]
    exact ⟨some t, rfl, ⟨t, rfl, ht⟩, hlists, trivial⟩

theorem succeedsIff_mainClasses (name : Text) (entries : List (Text × JsonValue)) :
    SucceedsIff typed (mainClasses name entries).result
      (wrapsObject entries = false → Text.isBlank name = false ∧ Named entries) := by
  unfold mainClasses
  cases wrapsObject entries with
  | true => exact (SucceedsIff.pure []).congr (by simp)
  | false => exact ((succeedsIff_classOf name entries).traced_map (fun c => [c])).congr (by simp)

/-- A document can be planned exactly if its configuration names a namespace and lists namespaces to use, and all classes
and properties get names. -/
theorem succeedsIff_plan (name : Text) (entries : List (Text × JsonValue)) (config : Config) :
    SucceedsIff (givesTexts config) (plan name entries config).result
      ((∃ t, config.spaceName = .string t ∧ Text.isBlank t = false) ∧ ListsUsings config.usings ∧
        (wrapsObject entries = false → Text.isBlank name = false ∧ Named entries) ∧
        ∀ e ∈ entries, NamedBelow e.1 e.2) := by
  rw [result_plan]
  refine ((succeedsIff_emptySpace config).bind (fun _ _ => (succeedsIff_mainClasses name entries).bind (fun _ _ =>
    (succeedsIff_nestedClasses entries).bind (fun _ _ => .pure _)))).congr ?_
  rw [and_true, and_assoc]

/-! ## Documents -/

/-- An entry with an object in it, or above it, has a property. -/
theorem Reaches.exists_typed {key k : Text} {v : JsonValue} {path : List Nat} {inner : List (Text × JsonValue)}
    (h : Reaches key v path k inner) : ∃ g t, Typed key v g t := by
  cases h with
  | here => exact ⟨.object, _, .object _⟩
  | inside _ _ => exact ⟨.object, _, .object _⟩

/-- An object below a value stands in an entry with a property, so its key is not blank if the keys of such entries are
not. -/
theorem Reaches.notBlank {key k : Text} {v : JsonValue} {path : List Nat} {inner : List (Text × JsonValue)}
    (h : Reaches key v path k inner) (hkey : Text.isBlank key = false)
    (hnamed : ∀ path k inner, Reaches key v path k inner → Named inner) : Text.isBlank k = false := by
  induction h with
  | here key entries => exact hkey
  | @inside key k entries target i entry path hentry hreaches ih =>
    have hmem := List.mem_of_getElem? hentry
    have hentryKey := hnamed [] key entries (.here key entries) entry.1 entry.2 hmem hreaches.exists_typed
    exact ih hentryKey (fun path k inner h => hnamed (i :: path) k inner (.inside hentry h))

theorem named_document_iff {name : Text} {entries : List (Text × JsonValue)} :
    ((wrapsObject entries = false → Text.isBlank name = false ∧ Named entries) ∧ ∀ e ∈ entries, NamedBelow e.1 e.2) ↔
      ((¬ ∃ key inner, entries = [(key, .object inner)]) → Text.isBlank name = false) ∧
        ∀ path key inner, Reaches name (.object entries) path key inner → Named inner := by
  rw [← wrapsObject_eq_true, Bool.not_eq_true]
  constructor
  · rintro ⟨hmain, hbelow⟩
    refine ⟨fun hwraps => (hmain hwraps).1, fun path key inner hreaches => ?_⟩
    cases hreaches with
    | inside hentry hreaches => exact (hbelow _ (List.mem_of_getElem? hentry) _ key inner hreaches).2
    | here =>
      cases hwraps : wrapsObject entries with
      | false => exact (hmain hwraps).2
      | true =>
        obtain ⟨k, inner, rfl⟩ := wrapsObject_eq_true.mp hwraps
        intro key v hmem _
        cases List.mem_singleton.mp hmem
        exact (hbelow _ hmem [] k inner (.here k inner)).1
  · rintro ⟨hname, hnamed⟩
    refine ⟨fun hwraps => ⟨hname hwraps, hnamed [] name entries (.here name entries)⟩, ?_⟩
    intro e he path k inner hreaches
    obtain ⟨i, hi⟩ := List.mem_iff_getElem?.mp he
    have hinside : ∀ path k inner, Reaches e.1 e.2 path k inner → Named inner :=
      fun path k inner h => hnamed (i :: path) k inner (.inside hi h)
    have hkey := hnamed [] name entries (.here name entries) e.1 e.2 he hreaches.exists_typed
    exact ⟨hreaches.notBlank hkey hinside, hinside path k inner hreaches⟩

/-! ## Builds -/

theorem builds_propertyDraft {typeName key : Text} (htype : Text.isBlank typeName = false)
    (hkey : Text.isBlank key = false) :
    PropertyDraft.Builds false (propertyDraft typeName key) { name := Text.pascal key, typeName } where
  name := ⟨rfl, by rw [Text.isBlank_pascal, hkey]⟩
  typeName := ⟨rfl, htype⟩
  access := rfl
  getter := rfl
  setter := rfl
  setterAccess := rfl
  defaultValue := rfl
  isStatic := rfl
  summary := rfl
  typeArguments := .nil
  autoSetter := fun _ _ => rfl
  autoDefault := fun h => Bool.noConfusion h
  narrower := fun a h => absurd h (Option.some_ne_none a).symm

/-- The drafts that a pass over the entries gives are built. -/
theorem exists_builds_of_forEach {g : Group} {f : Text × JsonValue → Traced (Option Plan.Property)}
    (hsome : ∀ {key v p}, (f (key, v)).result = .ok (some p) → ∃ t, Typed key v g t ∧ p = propertyDraft t key)
    (hsucceeds : ∀ key v, SucceedsIff true (f (key, v)).result ((∃ t, Typed key v g t) → Text.isBlank key = false))
    {entries : List (Text × JsonValue)} {drafts : List (Option Plan.Property)}
    (hdrafts : Forall₂ (fun e d => (f e).result = .ok d) entries drafts) :
    ∀ p ∈ drafts.filterMap id, ∃ q, PropertyDraft.Builds false p q := by
  intro p hp
  have hmem : some p ∈ drafts := by simpa using hp
  obtain ⟨⟨key, v⟩, -, hresult⟩ := forall₂_exists_left hdrafts _ hmem
  obtain ⟨t, htyped, rfl⟩ := hsome hresult
  have hkey := (hsucceeds key v).ok_iff.mp ⟨_, hresult⟩ ⟨t, htyped⟩
  exact ⟨_, builds_propertyDraft (htyped.notBlank hkey) hkey⟩

theorem exists_forall₂ {α β : Type} {R : α → β → Prop} {as : List α} (h : ∀ a ∈ as, ∃ b, R a b) :
    ∃ bs, Forall₂ R as bs := by
  induction as with
  | nil => exact ⟨[], .nil⟩
  | cons a as ih =>
    obtain ⟨b, hb⟩ := h a List.mem_cons_self
    obtain ⟨bs, hbs⟩ := ih (fun c hc => h c (List.mem_cons_of_mem a hc))
    exact ⟨b :: bs, .cons hb hbs⟩

theorem exists_builds_of_classOf {key : Text} {entries : List (Text × JsonValue)} {d : Plan.Class}
    (h : (classOf key entries).result = .ok d) : ∃ c, ClassDraft.Builds d c := by
  obtain ⟨n, ss, os, as, hn, hss, hos, has, rfl⟩ := classOf_result h
  obtain ⟨ps, hps⟩ : ∃ ps, Forall₂ (PropertyDraft.Builds false) ((ss ++ os ++ as).filterMap id) ps := by
    refine exists_forall₂ (fun p hp => ?_)
    rw [List.filterMap_append, List.filterMap_append, List.mem_append, List.mem_append] at hp
    rcases hp with (hp | hp) | hp
    · exact exists_builds_of_forEach simpleProperty_some succeedsIff_simpleProperty hss p hp
    · exact exists_builds_of_forEach objectProperty_some succeedsIff_objectProperty hos p hp
    · exact exists_builds_of_forEach arrayProperty_some succeedsIff_arrayProperty has p hp
  exact ⟨{ name := n, properties := ps }, ⟨rfl, hn.2⟩, rfl, rfl, rfl, rfl, rfl, .nil, .nil, hps, .nil,
    fun hstatic => Bool.noConfusion hstatic⟩

/-- All drafts of classes in a plan are drafts of objects. -/
theorem exists_classOf_of_plan {name : Text} {entries : List (Text × JsonValue)} {config : Config} {d : Plan.Namespace}
    (h : (plan name entries config).result = .ok d) :
    ∀ c ∈ d.classes, ∃ key inner, (classOf key inner).result = .ok c := by
  obtain ⟨main, nested, hclasses, hwraps, hmain, hnested⟩ := plan_result h
  intro c hc
  rw [hclasses, List.mem_append] at hc
  rcases hc with hc | hc
  · cases hw : wrapsObject entries with
    | true =>
      rw [hwraps hw] at hc
      exact absurd hc List.not_mem_nil
    | false =>
      obtain ⟨m, rfl, hm⟩ := hmain hw
      rw [List.mem_singleton.mp hc]
      exact ⟨name, entries, hm⟩
  · obtain ⟨path, -, hbelow⟩ := forall₂_exists_left hnested c hc
    obtain ⟨key, inner, -, hclass⟩ := hbelow.draftAt name
    exact ⟨key, inner, hclass⟩

theorem plan_result_rest {name : Text} {entries : List (Text × JsonValue)} {config : Config} {d : Plan.Namespace}
    (h : (plan name entries config).result = .ok d) :
    (∃ t, Gives d.name t) ∧ d.structs = [] ∧ d.interfaces = [] ∧ d.enums = [] := by
  obtain ⟨space, hspace, main, -, nested, -, rfl⟩ := plan_eq_ok.mp h
  simp only [emptySpace, NamespaceDraft.create, newName, bind_eq_ok, pure_eq_ok, nonBlank_eq_ok] at hspace
  obtain ⟨_, -, _, ⟨_, ⟨t, ht, rfl⟩, rfl⟩, _, -, rfl⟩ := hspace
  exact ⟨⟨t, rfl, ht.2⟩, rfl, rfl, rfl⟩

/-- The checks of a build find nothing in a plan: names and types were looked at when the drafts were made, and no draft
of a plan asks for anything that C# forbids. -/
theorem exists_builds_of_plan {name : Text} {entries : List (Text × JsonValue)} {config : Config} {d : Plan.Namespace}
    (h : (plan name entries config).result = .ok d) : ∃ n, NamespaceDraft.Builds d n := by
  obtain ⟨⟨t, ht⟩, hstructs, hinterfaces, henums⟩ := plan_result_rest h
  have hdrafts := exists_classOf_of_plan h
  obtain ⟨cs, hcs⟩ : ∃ cs, Forall₂ ClassDraft.Builds d.classes cs := by
    refine exists_forall₂ (fun c hc => ?_)
    obtain ⟨key, inner, hclass⟩ := hdrafts c hc
    exact exists_builds_of_classOf hclass
  refine ⟨{ name := t, usings := d.usings, classes := cs }, ht, rfl, hcs, ?_, ?_, ?_, fun c hc => ?_, ?_, ?_, ?_⟩
  · rw [hstructs]
    exact .nil
  · rw [hinterfaces]
    exact .nil
  · rw [henums]
    exact .nil
  · obtain ⟨draft, hdraft, hbuilds⟩ := forall₂_exists_left hcs c hc
    obtain ⟨key, inner, hclass⟩ := hdrafts draft hdraft
    obtain ⟨_, _, _, -, -, -, rfl⟩ := mirrors_of_classOf hclass hbuilds
    exact List.mem_of_elem_eq_true rfl
  · exact fun s hs => absurd hs List.not_mem_nil
  · exact fun i hi => absurd hi List.not_mem_nil
  · exact fun e he => absurd he List.not_mem_nil

theorem succeedsIff_generate {name contents : Text} {config : Config} {entries : List (Text × JsonValue)}
    (hread : JsonValue.read? contents = some (.object entries)) :
    SucceedsIff (givesTexts config) (generate name contents config).result
      ((∃ t, config.spaceName = .string t ∧ Text.isBlank t = false) ∧ ListsUsings config.usings ∧
        ((¬ ∃ key inner, entries = [(key, .object inner)]) → Text.isBlank name = false) ∧
        ∀ path key inner, Reaches name (.object entries) path key inner → Named inner) := by
  have hbuild : ∀ d, (plan name entries config).result = .ok d →
      SucceedsIff (givesTexts config) (Traced.ofExcept (NamespaceDraft.build d) >>= fun n =>
        Traced.forEach Traced.note (buildEvents n) >>= fun _ => (pure n : Traced NamespaceDecl)).result True := by
    intro d hd
    obtain ⟨n, hn⟩ := exists_builds_of_plan hd
    rw [NamespaceDraft.build_eq_ok.mpr hn]
    have hnotes : SucceedsIff (givesTexts config) (Traced.forEach Traced.note (buildEvents n)).result
        (∀ e ∈ buildEvents n, True) :=
      .forEach (fun _ _ => trivial)
    exact ((SucceedsIff.pure n).traced_bind (fun m hm => by
      cases hm
      exact hnotes.traced_map (fun _ => n))).congr (by simp)
  have hdeclare := (succeedsIff_plan name entries config).traced_bind hbuild
  unfold generate declare
  rw [hread]
  refine (hdeclare.traced_map NamespaceDecl.render).congr ?_
  rw [and_true, named_document_iff]

theorem isOfArgument_eq_true {fault : Fault} :
    fault.isOfArgument typed = true ↔ (∃ argument, fault = .nullArgument argument) ∨
      (∃ argument, fault = .emptyArgument argument) ∨ (fault = .unsupported ∧ typed = false) := by
  cases fault <;> simp [Fault.isOfArgument]

/-- A text that is no object is refused as such, before anything is planned. -/
theorem isOfBuild_of_generate {name contents : Text} {config : Config} {fault : Fault}
    (h : (generate name contents config).result = .error fault) : fault.isOfBuild = false := by
  cases hread : JsonValue.read? contents with
  | none =>
    unfold generate declare at h
    rw [hread] at h
    cases h
    rfl
  | some v =>
    cases v with
    | object entries =>
      rcases isOfArgument_eq_true.mp ((succeedsIff_generate hread).isOfArgument h) with ⟨_, rfl⟩ | ⟨_, rfl⟩ | ⟨rfl, -⟩
      · rfl
      · rfl
      · rfl
    | _ =>
      unfold generate declare at h
      rw [hread] at h
      cases h
      rfl

/-- The data classes of an object can be generated exactly if the configuration has a namespace and usable namespaces to
use, the document has a name where its class needs one, and no entry that has a property, in any object of the document,
has a blank key. Otherwise an argument was left out or is blank, or the configuration holds something that is no text; a
build never fails, whatever the text is. -/
theorem generate_succeeds_iff (name contents : Text) (config : Config) :
    (∀ entries, JsonValue.read? contents = some (.object entries) →
      ((∃ text, (generate name contents config).result = .ok text) ↔
        (∃ t, config.spaceName = .string t ∧ Text.isBlank t = false) ∧ ListsUsings config.usings ∧
        ((¬ ∃ key inner, entries = [(key, .object inner)]) → Text.isBlank name = false) ∧
        ∀ path key inner, Reaches name (.object entries) path key inner → Named inner) ∧
      ∀ fault, (generate name contents config).result = .error fault →
        (∃ argument, fault = .nullArgument argument) ∨ (∃ argument, fault = .emptyArgument argument) ∨
          (fault = .unsupported ∧ givesTexts config = false)) ∧
    ∀ fault, (generate name contents config).result = .error fault → fault.isOfBuild = false := by
  refine ⟨fun entries hread => ?_, fun fault => isOfBuild_of_generate⟩
  have hiff : SucceedsIff (givesTexts config) (generate name contents config).result _ := succeedsIff_generate hread
  exact ⟨hiff.ok_iff, fun fault h => isOfArgument_eq_true.mp (hiff.isOfArgument h)⟩

/-- A text that is an object, with its entries. -/
structure ObjectText where
  contents : Text
  entries : List (Text × JsonValue)
  read : JsonValue.read? contents = some (.object entries)

/-- An entry without a property that has a blank key. -/
def blankNull : ObjectText where
  contents := "\x7b\"\": null\x7d".toList
  entries := [([], .null)]
  read := by decide +kernel

/-- An entry with a property that has a blank key. -/
def blankOne : ObjectText where
  contents := "\x7b\"\": 1\x7d".toList
  entries := [([], .int 1)]
  read := by decide +kernel

/-- A blank key does no harm to an entry without a property, and stops an entry with one. -/
theorem generate_succeeds_iff_blankKey :
    (∃ text, (generate "user".toList blankNull.contents {}).result = .ok text) ∧
      ¬ ∃ text, (generate "user".toList blankOne.contents {}).result = .ok text := by
  constructor
  · refine ((generate_succeeds_iff _ _ _).1 _ blankNull.read).1.mpr ⟨⟨_, rfl, by decide⟩,
      ⟨["System".toList], Or.inl rfl, ?_⟩, fun _ => by decide, fun path key inner hreaches k v hmem htyped => ?_⟩
    · decide
    · cases hreaches with
      | here =>
        cases List.mem_singleton.mp hmem
        obtain ⟨g, t, ⟨⟨⟩⟩⟩ := htyped
      | inside hentry hreaches =>
        cases List.mem_singleton.mp (List.mem_of_getElem? hentry)
        cases hreaches
  · rw [((generate_succeeds_iff _ _ _).1 _ blankOne.read).1]
    rintro ⟨-, -, -, hnamed⟩
    have hblank := hnamed [] _ _ (.here _ _) [] (.int 1) (List.mem_singleton_self _) ⟨_, _, .simple (.int 1)⟩
    cases hblank

end DataClass

end CSharpDraft
