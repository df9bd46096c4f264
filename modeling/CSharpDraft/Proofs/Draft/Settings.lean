import CSharpDraft.Draft.Call
import CSharpDraft.Proofs.Draft.Builds

/-!
# The settings of a draft

A draft of any kind is its kind with a row of cells, one for each of its settings, and a change rewrites one cell of the
row:

* `Cell`, `Entry.cells` : what a setting holds, and the settings of a draft with what they hold;
* `Entry.eq_of_cells` : the row of cells holds all there is to a draft of a given kind;
* `Change.update`, `Change.apply` : what a change makes of the cell of its setting, and of a row;
* `Entry.cells_change?` : the row after a change, whichever kind of draft is changed;
* `Entry.isSome_change?` : a draft can be changed wherever its row has the setting, which is settled by its kind;
* `Call.setting` : the setting that a call is about, whether or not its arguments are good.
-/

set_option autoImplicit false

namespace CSharpDraft

/-! ## Cells -/

/-- What a setting holds. -/
inductive Cell where
  | text (t : Option Text)
  | access (a : Option Access)
  | flag (on : Bool)
  | accessor (a : Option Accessor)
  | value (v : Option Int)
  | parameters (ps : List ParameterDecl)
  | arguments (as : Option (List Text))
  | names (ns : List Text)
  | children (rs : List Ref)
  deriving DecidableEq, Repr

/-- The settings of a draft, with what they hold. -/
def Entry.cells : Entry → List (Setting × Cell)
  | typeParameter d => [(.name, .text d.name), (.names .constraints, .names d.constraints)]
  | fieldMember d => [
      (.name, .text d.name), (.typeName, .text d.typeName), (.access, .access (some d.access)),
      (.flag .isReadonly, .flag d.isReadonly), (.summary, .text d.summary),
      (.children .typeParameters, .children d.typeParameters)]
  | propertyMember d => [
      (.name, .text d.name), (.typeName, .text d.typeName), (.access, .access (some d.access)),
      (.getter, .accessor d.getter), (.setter, .accessor d.setter), (.setterAccess, .access d.setterAccess),
      (.defaultValue, .text d.defaultValue), (.flag .isStatic, .flag d.isStatic), (.summary, .text d.summary),
      (.children .typeParameters, .children d.typeParameters)]
  | constructorMember d => [
      (.access, .access d.access), (.parameters, .parameters d.parameters), (.baseCall, .arguments d.baseCall),
      (.summary, .text d.summary)]
  | enumMember d => [(.name, .text d.name), (.value, .value d.value), (.summary, .text d.summary)]
  | classType d => [
      (.name, .text d.name), (.access, .access (some d.access)), (.summary, .text d.summary),
      (.baseClass, .text d.baseClass), (.names .interfaces, .names d.interfaces), (.flag .isStatic, .flag d.isStatic),
      (.children .fields, .children d.fields), (.children .properties, .children d.properties),
      (.children .constructors, .children d.constructors), (.children .typeParameters, .children d.typeParameters)]
  | structType d => [
      (.name, .text d.name), (.access, .access (some d.access)), (.summary, .text d.summary),
      (.names .interfaces, .names d.interfaces), (.children .fields, .children d.fields),
      (.children .properties, .children d.properties), (.children .constructors, .children d.constructors),
      (.children .typeParameters, .children d.typeParameters)]
  | interfaceType d => [
      (.name, .text d.name), (.access, .access (some d.access)), (.summary, .text d.summary),
      (.names .interfaces, .names d.interfaces), (.children .properties, .children d.properties),
      (.children .typeParameters, .children d.typeParameters)]
  | enumType d => [
      (.name, .text d.name), (.access, .access (some d.access)), (.summary, .text d.summary),
      (.flag .isFlags, .flag d.isFlags), (.children .members, .children d.members)]
  | namespaceFile d => [
      (.name, .text d.name), (.names .usings, .names d.usings), (.children .classes, .children d.classes),
      (.children .structs, .children d.structs), (.children .interfaces, .children d.interfaces),
      (.children .enums, .children d.enums)]

/-- The settings that drafts of a kind have. -/
def Kind.settings : Kind → List Setting
  | typeParameter => [.name, .names .constraints]
  | fieldMember => [.name, .typeName, .access, .flag .isReadonly, .summary, .children .typeParameters]
  | propertyMember => [
      .name, .typeName, .access, .getter, .setter, .setterAccess, .defaultValue, .flag .isStatic, .summary,
      .children .typeParameters]
  | constructorMember => [.access, .parameters, .baseCall, .summary]
  | enumMember => [.name, .value, .summary]
  | classType => [
      .name, .access, .summary, .baseClass, .names .interfaces, .flag .isStatic, .children .fields,
      .children .properties, .children .constructors, .children .typeParameters]
  | structType => [
      .name, .access, .summary, .names .interfaces, .children .fields, .children .properties,
      .children .constructors, .children .typeParameters]
  | interfaceType => [
      .name, .access, .summary, .names .interfaces, .children .properties, .children .typeParameters]
  | enumType => [.name, .access, .summary, .flag .isFlags, .children .members]
  | namespaceFile => [
      .name, .names .usings, .children .classes, .children .structs, .children .interfaces, .children .enums]

theorem Entry.map_fst_cells (e : Entry) : e.cells.map (·.1) = e.kind.settings := by
  cases e <;> rfl

/-- The kind and the cells are all there is to a draft. -/
theorem Entry.eq_of_cells {e f : Entry} (hkind : e.kind = f.kind) (hcells : e.cells = f.cells) : e = f := by
  cases e <;> cases f <;> cases hkind
  all_goals
    rename_i d d'
    cases d
    cases d'
    cases hcells
    rfl

/-! ## Changes -/

/-- What a change makes of the cell of its setting. -/
def Change.update : Change → Cell → Cell
  | setName v, _ => .text (some v)
  | setType v, _ => .text (some v)
  | setAccess a, _ => .access (some a)
  | setSummary v, _ => .text (some v)
  | setBase v, _ => .text (some v)
  | setFlag _ b, _ => .flag b
  | setGetter a, _ => .accessor a
  | setSetter a, _ => .accessor a
  | setSetterAccess a, _ => .access (some a)
  | setDefault v, _ => .text (some v)
  | setValue v, _ => .value v
  | addParameter p, .parameters ps => .parameters (ps ++ [p])
  | setBaseCall as, _ => .arguments (some as)
  | addNames _ vs, .names ns => .names (ns ++ vs)
  | addChildren _ qs, .children rs => .children (rs ++ qs)
  | _, x => x

/-- A setting with what it holds, after a change. -/
def Change.apply (c : Change) (p : Setting × Cell) : Setting × Cell :=
  (p.1, if p.1 = c.setting then c.update p.2 else p.2)

theorem Entry.kind_change? {e f : Entry} {c : Change} (h : e.change? c = some f) : f.kind = e.kind := by
  cases e <;>
    · obtain ⟨d, -, rfl⟩ := Option.map_eq_some_iff.mp h
      rfl

/-- A change rewrites the cell of its setting and no other. -/
theorem Entry.cells_change? {e f : Entry} {c : Change} (h : e.change? c = some f) : f.cells = e.cells.map c.apply := by
  cases e with
  | typeParameter d =>
    obtain ⟨d', hd, rfl⟩ := Option.map_eq_some_iff.mp h
    unfold TypeParameterDraft.change? at hd
    split at hd <;> cases hd <;> rfl
  | fieldMember d =>
    obtain ⟨d', hd, rfl⟩ := Option.map_eq_some_iff.mp h
    unfold FieldDraft.change? at hd
    split at hd <;> cases hd <;> rfl
  | propertyMember d =>
    obtain ⟨d', hd, rfl⟩ := Option.map_eq_some_iff.mp h
    unfold PropertyDraft.change? at hd
    split at hd <;> cases hd <;> rfl
  | constructorMember d =>
    obtain ⟨d', hd, rfl⟩ := Option.map_eq_some_iff.mp h
    unfold ConstructorDraft.change? at hd
    split at hd <;> cases hd <;> rfl
  | enumMember d =>
    obtain ⟨d', hd, rfl⟩ := Option.map_eq_some_iff.mp h
    unfold EnumMemberDraft.change? at hd
    split at hd <;> cases hd <;> rfl
  | classType d =>
    obtain ⟨d', hd, rfl⟩ := Option.map_eq_some_iff.mp h
    unfold ClassDraft.change? at hd
    split at hd <;> cases hd <;> rfl
  | structType d =>
    obtain ⟨d', hd, rfl⟩ := Option.map_eq_some_iff.mp h
    unfold StructDraft.change? at hd
    split at hd <;> cases hd <;> rfl
  | interfaceType d =>
    obtain ⟨d', hd, rfl⟩ := Option.map_eq_some_iff.mp h
    unfold InterfaceDraft.change? at hd
    split at hd <;> cases hd <;> rfl
  | enumType d =>
    obtain ⟨d', hd, rfl⟩ := Option.map_eq_some_iff.mp h
    unfold EnumDraft.change? at hd
    split at hd <;> cases hd <;> rfl
  | namespaceFile d =>
    obtain ⟨d', hd, rfl⟩ := Option.map_eq_some_iff.mp h
    unfold NamespaceDraft.change? at hd
    split at hd <;> cases hd <;> rfl

/-- Whether a draft can be changed is settled by its kind and the setting. -/
theorem Entry.isSome_change? (e : Entry) (c : Change) :
    (e.change? c).isSome = e.kind.settings.contains c.setting := by
  cases c with
  | setFlag f b => cases e <;> cases f <;> rfl
  | addNames l ns => cases e <;> cases l <;> rfl
  | addChildren l rs => cases e <;> cases l <;> rfl
  | _ => cases e <;> rfl

/-! ## Calls -/

/-- The setting that a call is about. -/
def Call.setting {ρ : Type} : Call ρ → Setting
  | setName _ => .name
  | setType _ => .typeName
  | setAccess _ => .access
  | setSummary _ => .summary
  | setBase _ => .baseClass
  | setFlag f _ => .flag f
  | setGetter _ => .getter
  | dropGetter => .getter
  | setSetter _ => .setter
  | dropSetter => .setter
  | setSetterAccess _ => .setterAccess
  | setDefault _ => .defaultValue
  | setValue _ => .value
  | addParameter _ _ _ => .parameters
  | setBaseCall _ => .baseCall
  | addName l _ => .names l
  | addNames l _ => .names l
  | addChild l _ => .children l
  | addChildren l _ => .children l

theorem Call.setting_change {c : Call Ref} {x : Change} (h : c.change = .ok x) : x.setting = c.setting := by
  cases c with
  | setFlag f b =>
    cases h
    rfl
  | dropGetter =>
    cases h
    rfl
  | dropSetter =>
    cases h
    rfl
  | _ =>
    simp only [Call.change, bind_eq_ok, pure_eq_ok] at h
    obtain ⟨_, -, rfl⟩ := h
    rfl

end CSharpDraft
