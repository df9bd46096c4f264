import CSharpDraft.Draft.Work
import Mathlib.Data.List.Forall2

/-!
# What work leaves behind

Work could change any draft at any point, and keep what it has changed when it fails. A call that fails has changed
nothing, because all its checks come before its one change; and a build or a question has changed nothing, whether it
fails or not.

* `Leaves` : on a state the work comes to an answer, and leaves the state as it is;
* `Work.run_call` : a call does what `Workspace.call` says, and what fails leaves the workspace;
* `FieldDraft.leaves_buildWith`, …, `NamespaceDraft.leaves_buildWith` : a build leaves the workspace if the builds of the
  members do, and comes to what these builds come to;
* `Work.exists_leaves_build`, `Work.exists_leaves_hasMember` : so no build and no question changes a workspace, also where
  references lead nowhere.
-/

set_option autoImplicit false

namespace CSharpDraft

open List (Forall₂)

/-! ## Work that leaves the state as it is -/

section Leaves

variable {σ α β : Type}

/-- An answer on a state as it is. -/
def result (s : σ) : Except Fault α → EStateM.Result Fault σ α
  | .ok a => .ok a s
  | .error f => .error f s

/-- On the state the work comes to the answer, and leaves the state as it is. -/
def Leaves (s : σ) (x : EStateM Fault σ α) (y : Except Fault α) : Prop := x s = result s y

theorem bind_apply (x : EStateM Fault σ α) (k : α → EStateM Fault σ β) (s : σ) :
    (x >>= k) s = match x s with
      | .ok a t => k a t
      | .error f t => .error f t := by
  change EStateM.bind x k s = _
  rw [EStateM.bind]
  cases x s <;> rfl

variable {s : σ}

theorem leaves_pure (a : α) : Leaves s (pure a) (pure a) := rfl

theorem leaves_throw (f : Fault) : Leaves s (throw f : EStateM Fault σ α) (.error f) := rfl

theorem Leaves.bind {x : EStateM Fault σ α} {y : Except Fault α} {k : α → EStateM Fault σ β} {l : α → Except Fault β}
    (h : Leaves s x y) (hk : ∀ a, y = .ok a → Leaves s (k a) (l a)) : Leaves s (x >>= k) (y >>= l) := by
  unfold Leaves at h ⊢
  rw [bind_apply, h]
  cases y with
  | error f => rfl
  | ok a => exact hk a rfl

theorem Leaves.map {x : EStateM Fault σ α} {y : Except Fault α} (h : Leaves s x y) (g : α → β) :
    Leaves s (do return g (← x)) (y.map g) := by
  have hmap : y.map g = y >>= fun a => pure (g a) := by cases y <;> rfl
  rw [hmap]
  exact h.bind (fun a _ => leaves_pure (g a))

end Leaves

namespace Work

variable {α β γ : Type} {w : Workspace}

theorem leaves_lift (y : Except Fault α) : Leaves w (liftM y : Work α) y := by cases y <;> rfl

/-- A check comes to the same in a piece of work as on its own. -/
theorem leaves_check {y : Except Fault α} {k : α → Work β} {l : α → Except Fault β} (h : ∀ a, Leaves w (k a) (l a)) :
    Leaves w (liftM y >>= k) (liftM y >>= l) := (leaves_lift y).bind (fun a _ => h a)

theorem leaves_checkEach {f : α → Work γ} {g : β → Except Fault γ} {as : List α} {bs : List β}
    (h : Forall₂ (fun a b => Leaves w (f a) (g b)) as bs) : Leaves w (checkEach f as) (checkEach g bs) := by
  induction h with
  | nil => exact leaves_pure []
  | cons hab _ ih => exact hab.bind (fun c _ => ih.bind (fun cs _ => leaves_pure (c :: cs)))

theorem leaves_checks {y : α → Except Fault γ} {k : List γ → Work β} {l : List γ → Except Fault β} (as : List α)
    (h : ∀ cs, Leaves w (k cs) (l cs)) :
    Leaves w (checkEach (fun a => liftM (y a)) as >>= k) (checkEach (fun a => liftM (y a)) as >>= l) :=
  (leaves_checkEach (List.forall₂_same.mpr (fun a _ => leaves_lift (y a)))).bind (fun cs _ => h cs)

theorem leaves_entry (r : Ref) :
    Leaves w (entry r) (match w.entry? r with
      | some e => .ok e
      | none => .error .unsupported) := by
  change (match w.entry? r with | some e => pure e | none => throw .unsupported : Work Entry) w = _
  cases w.entry? r <;> rfl

theorem leaves_entry_bind {r : Ref} {e : Entry} (he : w.entry? r = some e) {k : Entry → Work β} {y : Except Fault β}
    (h : Leaves w (k e) y) : Leaves w (entry r >>= k) y := by
  have hentry : entry r w = result w (.ok e) := by
    have := leaves_entry (w := w) r
    rwa [he] at this
  unfold Leaves
  rw [bind_apply, hentry]
  exact h

theorem leaves_no_entry {r : Ref} (he : w.entry? r = none) (k : Entry → Work β) :
    Leaves w (entry r >>= k) (.error .unsupported) := by
  have hentry := leaves_entry (w := w) r
  rw [he] at hentry
  exact hentry.bind (l := fun _ => .error .unsupported) (fun _ h => by cases h)

theorem exists_leaves_entry_bind (r : Ref) {k : Entry → Work β} (h : ∀ e, ∃ y, Leaves w (k e) y) :
    ∃ y, Leaves w (entry r >>= k) y := by
  cases he : w.entry? r with
  | none => exact ⟨.error .unsupported, leaves_no_entry he k⟩
  | some e =>
    obtain ⟨y, hy⟩ := h e
    exact ⟨y, leaves_entry_bind he hy⟩

/-! ## Calls -/

/-- A change either is made, or fails and leaves the workspace. -/
theorem run_change (r : Ref) (c : Change) (w : Workspace) :
    change r c w = match w.change r c with
      | .ok v => .ok () v
      | .error f => .error f w := by
  have hentry : entry r w = _ := leaves_entry r
  change (liftM (failIf (!w.admits c) .unsupported) >>= fun _ => entry r >>= _ : Work Unit) w = _
  rw [Workspace.change]
  cases w.admits c with
  | false => rfl
  | true =>
    change (entry r >>= _ : Work Unit) w = _
    rw [bind_apply, hentry]
    cases w.entry? r with
    | none => rfl
    | some e =>
      simp only [result, Option.bind_some, if_true]
      cases e.change? c <;> rfl

/-- A check at the start of a call may be taken for one at the start of its checks. -/
theorem check_bind {r : Ref} {y : Except Fault α} {k : α → Work Unit} {l : α → Except Fault Change}
    (h : ∀ a, k a = liftM (l a) >>= change r) : liftM y >>= k = liftM (y >>= l) >>= change r := by
  cases y with
  | error f => rfl
  | ok a => exact h a

theorem check_change (y : Except Fault α) (made : α → Change) (r : Ref) :
    (do change r (made (← y)) : Work Unit) = liftM (do return made (← y) : Except Fault Change) >>= change r :=
  check_bind (fun _ => rfl)

/-- Whatever the call is, all its checks come first, and its one change comes last. -/
theorem call_eq (r : Ref) (c : Call Ref) : call r c = liftM c.change >>= change r := by
  cases c with
  | setName name => exact check_change (given "name" name) .setName r
  | setType typeName => exact check_change (given "type" typeName) .setType r
  | setAccess access => exact check_change (accessOf access) .setAccess r
  | setSummary summary => exact check_change (given "summary" summary) .setSummary r
  | setBase name => exact check_change (nonBlank "name" name) .setBase r
  | setFlag flag on => rfl
  | setGetter body => exact check_change (accessorOf body) (fun a => .setGetter (some a)) r
  | dropGetter => rfl
  | setSetter body => exact check_change (accessorOf body) (fun a => .setSetter (some a)) r
  | dropSetter => rfl
  | setSetterAccess access => exact check_change (accessOf access) .setSetterAccess r
  | setDefault value => exact check_change (nonBlank "default_value" value) .setDefault r
  | setValue value => exact check_change (valueOf value) .setValue r
  | addParameter typeName name receiver =>
    rw [call, Call.change, parameterOf]
    simp only [bind_assoc]
    refine check_bind fun typeName => check_bind fun name => ?_
    cases receiver with
    | none => rfl
    | some receiver =>
      simp only [bind_assoc]
      exact check_bind fun _ => rfl
  | setBaseCall arguments => exact check_change (arguments.collectNames "arguments") .setBaseCall r
  | addName list name => exact check_change (listedName list name) (fun n => .addNames list [n]) r
  | addNames list names => exact check_change (listedNames list names) (.addNames list) r
  | addChild list child => exact check_change (given "builder" child) (fun q => .addChildren list [q]) r
  | addChildren list children => exact check_change (children.collect "builders") (.addChildren list) r

theorem run_call (r : Ref) (c : Call Ref) (w : Workspace) :
    call r c w = match w.call r c with
      | .ok v => .ok () v
      | .error f => .error f w := by
  rw [call_eq, Workspace.call, bind_apply]
  cases c.change with
  | error f => rfl
  | ok x => exact run_change r x w

theorem run_create (recipe : Recipe) (w : Workspace) :
    create recipe w = match recipe.entry with
      | .ok e => .ok (w.add e).2 (w.add e).1
      | .error f => .error f w := by
  rw [create, bind_apply]
  cases recipe.entry <;> rfl

end Work

/-! ## Builds over the builds of members -/

section Builds

open Work

variable {w : Workspace} {τ τ' φ φ' π π' κ κ' μ μ' γ γ' σ σ' ι ι' ε ε' : Type}
  {typeParameter : τ → Work TypeParameterDecl} {typeParameter' : τ' → Except Fault TypeParameterDecl}
  {field : φ → Work FieldDecl} {field' : φ' → Except Fault FieldDecl}
  {property : π → Bool → Work PropertyDecl} {property' : π' → Bool → Except Fault PropertyDecl}
  {constructor : κ → Text → Bool → Work ConstructorDecl} {constructor' : κ' → Text → Bool → Except Fault ConstructorDecl}
  {ts : List τ'} {fs : List φ'} {ps : List π'} {cs : List κ'}

theorem FieldDraft.leaves_buildWith {d : FieldDraft τ}
    (hts : Forall₂ (fun r t => Leaves w (typeParameter r) (typeParameter' t)) d.typeParameters ts) :
    Leaves w (d.buildWith typeParameter) (FieldDraft.buildWith typeParameter' { d with typeParameters := ts }) :=
  leaves_check fun _ => leaves_check fun _ => (leaves_checkEach hts).bind fun _ _ => leaves_pure _

theorem PropertyDraft.leaves_buildWith {d : PropertyDraft τ} (inInterface : Bool)
    (hts : Forall₂ (fun r t => Leaves w (typeParameter r) (typeParameter' t)) d.typeParameters ts) :
    Leaves w (d.buildWith typeParameter inInterface)
      (PropertyDraft.buildWith typeParameter' { d with typeParameters := ts } inInterface) :=
  leaves_check fun _ => leaves_check fun _ => leaves_check fun _ => leaves_check fun _ => leaves_check fun _ =>
    leaves_check fun _ => (leaves_checkEach hts).bind fun _ _ => leaves_pure _

theorem ClassDraft.leaves_buildWith {d : ClassDraft τ φ π κ}
    (hts : Forall₂ (fun r t => Leaves w (typeParameter r) (typeParameter' t)) d.typeParameters ts)
    (hfs : Forall₂ (fun r f => Leaves w (field r) (field' f)) d.fields fs)
    (hps : Forall₂ (fun r p => ∀ b, Leaves w (property r b) (property' p b)) d.properties ps)
    (hcs : Forall₂ (fun r c => ∀ t b, Leaves w (constructor r t b) (constructor' c t b)) d.constructors cs) :
    Leaves w (d.buildWith typeParameter field property constructor)
      (ClassDraft.buildWith typeParameter' field' property' constructor'
        { d with typeParameters := ts, fields := fs, properties := ps, constructors := cs }) := by
  have hlength : cs.length = d.constructors.length := hcs.length_eq.symm
  unfold ClassDraft.buildWith
  rw [hlength]
  refine leaves_check fun name => leaves_check fun _ => ?_
  exact (leaves_checkEach hts).bind fun _ _ => (leaves_checkEach hfs).bind fun _ _ =>
    (leaves_checkEach (hps.imp fun _ _ h => h false)).bind fun _ _ =>
      (leaves_checkEach (hcs.imp fun _ _ h => h name d.isStatic)).bind fun _ _ => leaves_pure _

theorem StructDraft.leaves_buildWith {d : StructDraft τ φ π κ}
    (hts : Forall₂ (fun r t => Leaves w (typeParameter r) (typeParameter' t)) d.typeParameters ts)
    (hfs : Forall₂ (fun r f => Leaves w (field r) (field' f)) d.fields fs)
    (hps : Forall₂ (fun r p => ∀ b, Leaves w (property r b) (property' p b)) d.properties ps)
    (hcs : Forall₂ (fun r c => ∀ t b, Leaves w (constructor r t b) (constructor' c t b)) d.constructors cs) :
    Leaves w (d.buildWith typeParameter field property constructor)
      (StructDraft.buildWith typeParameter' field' property' constructor'
        { d with typeParameters := ts, fields := fs, properties := ps, constructors := cs }) :=
  leaves_check fun name => (leaves_checkEach hts).bind fun _ _ => (leaves_checkEach hfs).bind fun _ _ =>
    (leaves_checkEach (hps.imp fun _ _ h => h false)).bind fun _ _ => leaves_checks _ fun _ =>
      (leaves_checkEach (hcs.imp fun _ _ h => h name false)).bind fun _ _ => leaves_check fun _ => leaves_pure _

theorem InterfaceDraft.leaves_buildWith {d : InterfaceDraft τ π}
    (hts : Forall₂ (fun r t => Leaves w (typeParameter r) (typeParameter' t)) d.typeParameters ts)
    (hps : Forall₂ (fun r p => ∀ b, Leaves w (property r b) (property' p b)) d.properties ps) :
    Leaves w (d.buildWith typeParameter property)
      (InterfaceDraft.buildWith typeParameter' property' { d with typeParameters := ts, properties := ps }) :=
  leaves_check fun _ => (leaves_checkEach hts).bind fun _ _ =>
    (leaves_checkEach (hps.imp fun _ _ h => h true)).bind fun _ _ => leaves_checks _ fun _ => leaves_pure _

theorem EnumDraft.leaves_buildWith {member : μ → Work EnumMemberDecl} {member' : μ' → Except Fault EnumMemberDecl}
    {ms : List μ'} {d : EnumDraft μ} (hms : Forall₂ (fun r m => Leaves w (member r) (member' m)) d.members ms) :
    Leaves w (d.buildWith member) (EnumDraft.buildWith member' { d with members := ms }) :=
  leaves_check fun _ => (leaves_checkEach hms).bind fun _ _ => leaves_check fun _ => leaves_pure _

theorem NamespaceDraft.leaves_buildWith {classType : γ → Work ClassDecl} {classType' : γ' → Except Fault ClassDecl}
    {structType : σ → Work StructDecl} {structType' : σ' → Except Fault StructDecl}
    {interfaceType : ι → Work InterfaceDecl} {interfaceType' : ι' → Except Fault InterfaceDecl}
    {enumType : ε → Work EnumDecl} {enumType' : ε' → Except Fault EnumDecl}
    {gs : List γ'} {ss : List σ'} {is : List ι'} {es : List ε'} {d : NamespaceDraft γ σ ι ε}
    (hgs : Forall₂ (fun r c => Leaves w (classType r) (classType' c)) d.classes gs)
    (hss : Forall₂ (fun r s => Leaves w (structType r) (structType' s)) d.structs ss)
    (his : Forall₂ (fun r i => Leaves w (interfaceType r) (interfaceType' i)) d.interfaces is)
    (hes : Forall₂ (fun r e => Leaves w (enumType r) (enumType' e)) d.enums es) :
    Leaves w (d.buildWith classType structType interfaceType enumType)
      (NamespaceDraft.buildWith classType' structType' interfaceType' enumType'
        { d with classes := gs, structs := ss, interfaces := is, enums := es }) :=
  leaves_check fun _ => (leaves_checkEach hgs).bind fun _ _ => (leaves_checkEach hss).bind fun _ _ =>
    (leaves_checkEach his).bind fun _ _ => (leaves_checkEach hes).bind fun _ _ => leaves_checks _ fun _ =>
      leaves_checks _ fun _ => leaves_checks _ fun _ => leaves_checks _ fun _ => leaves_pure _

end Builds

/-! ## Builds and questions leave the workspace -/

namespace Work

variable {w : Workspace}

/-- Where each of several pieces of work comes to some answer, they all do. -/
theorem exists_forall₂ {α β : Type} {R : α → β → Prop} (h : ∀ a, ∃ b, R a b) (as : List α) : ∃ bs, Forall₂ R as bs := by
  induction as with
  | nil => exact ⟨[], .nil⟩
  | cons a as ih =>
    obtain ⟨b, hb⟩ := h a
    obtain ⟨bs, hbs⟩ := ih
    exact ⟨b :: bs, .cons hb hbs⟩

theorem exists_leaves_buildTypeParameter (r : Ref) : ∃ y, Leaves w (buildTypeParameter r) y := by
  refine exists_leaves_entry_bind r (fun e => ?_)
  cases e with
  | typeParameter d => exact ⟨d.build, leaves_lift _⟩
  | _ => exact ⟨_, leaves_throw _⟩

theorem exists_leaves_buildField (r : Ref) : ∃ y, Leaves w (buildField r) y := by
  refine exists_leaves_entry_bind r (fun e => ?_)
  cases e with
  | fieldMember d =>
    obtain ⟨ts, hts⟩ := exists_forall₂ exists_leaves_buildTypeParameter d.typeParameters
    exact ⟨_, FieldDraft.leaves_buildWith hts⟩
  | _ => exact ⟨_, leaves_throw _⟩

theorem exists_leaves_buildProperty (r : Ref) :
    ∃ y : Bool → Except Fault PropertyDecl, ∀ b, Leaves w (buildProperty r b) (y b) := by
  refine Classical.skolem.mp (fun b => exists_leaves_entry_bind r (fun e => ?_))
  cases e with
  | propertyMember d =>
    obtain ⟨ts, hts⟩ := exists_forall₂ exists_leaves_buildTypeParameter d.typeParameters
    exact ⟨_, PropertyDraft.leaves_buildWith b hts⟩
  | _ => exact ⟨_, leaves_throw _⟩

theorem exists_leaves_buildConstructor (r : Ref) :
    ∃ y : Text → Bool → Except Fault ConstructorDecl, ∀ t b, Leaves w (buildConstructor r t b) (y t b) := by
  refine Classical.skolem.mp (fun t => Classical.skolem.mp (fun b => exists_leaves_entry_bind r (fun e => ?_)))
  cases e with
  | constructorMember d => exact ⟨d.build t b, leaves_lift _⟩
  | _ => exact ⟨_, leaves_throw _⟩

theorem exists_leaves_buildEnumMember (r : Ref) : ∃ y, Leaves w (buildEnumMember r) y := by
  refine exists_leaves_entry_bind r (fun e => ?_)
  cases e with
  | enumMember d => exact ⟨d.build, leaves_lift _⟩
  | _ => exact ⟨_, leaves_throw _⟩

theorem exists_leaves_buildClass (r : Ref) : ∃ y, Leaves w (buildClass r) y := by
  refine exists_leaves_entry_bind r (fun e => ?_)
  cases e with
  | classType d =>
    obtain ⟨ts, hts⟩ := exists_forall₂ exists_leaves_buildTypeParameter d.typeParameters
    obtain ⟨fs, hfs⟩ := exists_forall₂ exists_leaves_buildField d.fields
    obtain ⟨ps, hps⟩ := exists_forall₂ exists_leaves_buildProperty d.properties
    obtain ⟨cs, hcs⟩ := exists_forall₂ exists_leaves_buildConstructor d.constructors
    exact ⟨_, ClassDraft.leaves_buildWith hts hfs hps hcs⟩
  | _ => exact ⟨_, leaves_throw _⟩

theorem exists_leaves_buildStruct (r : Ref) : ∃ y, Leaves w (buildStruct r) y := by
  refine exists_leaves_entry_bind r (fun e => ?_)
  cases e with
  | structType d =>
    obtain ⟨ts, hts⟩ := exists_forall₂ exists_leaves_buildTypeParameter d.typeParameters
    obtain ⟨fs, hfs⟩ := exists_forall₂ exists_leaves_buildField d.fields
    obtain ⟨ps, hps⟩ := exists_forall₂ exists_leaves_buildProperty d.properties
    obtain ⟨cs, hcs⟩ := exists_forall₂ exists_leaves_buildConstructor d.constructors
    exact ⟨_, StructDraft.leaves_buildWith hts hfs hps hcs⟩
  | _ => exact ⟨_, leaves_throw _⟩

theorem exists_leaves_buildInterface (r : Ref) : ∃ y, Leaves w (buildInterface r) y := by
  refine exists_leaves_entry_bind r (fun e => ?_)
  cases e with
  | interfaceType d =>
    obtain ⟨ts, hts⟩ := exists_forall₂ exists_leaves_buildTypeParameter d.typeParameters
    obtain ⟨ps, hps⟩ := exists_forall₂ exists_leaves_buildProperty d.properties
    exact ⟨_, InterfaceDraft.leaves_buildWith hts hps⟩
  | _ => exact ⟨_, leaves_throw _⟩

theorem exists_leaves_buildEnum (r : Ref) : ∃ y, Leaves w (buildEnum r) y := by
  refine exists_leaves_entry_bind r (fun e => ?_)
  cases e with
  | enumType d =>
    obtain ⟨ms, hms⟩ := exists_forall₂ exists_leaves_buildEnumMember d.members
    exact ⟨_, EnumDraft.leaves_buildWith hms⟩
  | _ => exact ⟨_, leaves_throw _⟩

theorem exists_leaves_buildNamespace (r : Ref) : ∃ y, Leaves w (buildNamespace r) y := by
  refine exists_leaves_entry_bind r (fun e => ?_)
  cases e with
  | namespaceFile d =>
    obtain ⟨gs, hgs⟩ := exists_forall₂ exists_leaves_buildClass d.classes
    obtain ⟨ss, hss⟩ := exists_forall₂ exists_leaves_buildStruct d.structs
    obtain ⟨is, his⟩ := exists_forall₂ exists_leaves_buildInterface d.interfaces
    obtain ⟨es, hes⟩ := exists_forall₂ exists_leaves_buildEnum d.enums
    exact ⟨_, NamespaceDraft.leaves_buildWith hgs hss his hes⟩
  | _ => exact ⟨_, leaves_throw _⟩

/-- No build changes the workspace, whatever it is of and whether it fails or not. -/
theorem exists_leaves_build (r : Ref) (purpose : Workspace.Purpose) : ∃ y, Leaves w (build r purpose) y := by
  refine exists_leaves_entry_bind r (fun e => ?_)
  cases e with
  | typeParameter d => exact (exists_leaves_buildTypeParameter r).imp' _ (fun _ h => h.map _)
  | fieldMember d => exact (exists_leaves_buildField r).imp' _ (fun _ h => h.map _)
  | propertyMember d => exact (exists_leaves_buildProperty r).imp' _ (fun _ h => (h purpose.inInterface).map _)
  | constructorMember d =>
    exact (exists_leaves_buildConstructor r).imp' _ (fun _ h => (h purpose.typeName purpose.isStatic).map _)
  | enumMember d => exact (exists_leaves_buildEnumMember r).imp' _ (fun _ h => h.map _)
  | classType d => exact (exists_leaves_buildClass r).imp' _ (fun _ h => h.map _)
  | structType d => exact (exists_leaves_buildStruct r).imp' _ (fun _ h => h.map _)
  | interfaceType d => exact (exists_leaves_buildInterface r).imp' _ (fun _ h => h.map _)
  | enumType d => exact (exists_leaves_buildEnum r).imp' _ (fun _ h => h.map _)
  | namespaceFile d => exact (exists_leaves_buildNamespace r).imp' _ (fun _ h => h.map _)

theorem exists_leaves_render [Fragment.Parser] (r : Ref) (purpose : Workspace.Purpose) :
    ∃ y, Leaves w (render r purpose) y := by
  obtain ⟨y, hy⟩ := exists_leaves_build (w := w) r purpose
  exact ⟨_, hy.bind (fun d _ => leaves_lift d.render)⟩

theorem leaves_anyM {α β : Type} {f : α → Work Bool} {g : β → Except Fault Bool} {as : List α} {bs : List β}
    (h : Forall₂ (fun a b => Leaves w (f a) (g b)) as bs) : Leaves w (as.anyM f) (bs.anyM g) := by
  induction h with
  | nil => exact leaves_pure false
  | cons hab _ ih =>
    rw [List.anyM_cons, List.anyM_cons]
    refine hab.bind (fun b _ => ?_)
    cases b with
    | true => exact leaves_pure true
    | false => exact ih

theorem leaves_or {x z : Work Bool} {y u : Except Fault Bool} (hx : Leaves w x y) (hz : Leaves w z u) :
    Leaves w (x <||> z) (y <||> u) := by
  refine hx.bind (fun b _ => ?_)
  cases b with
  | true => exact leaves_pure true
  | false => exact hz

theorem exists_leaves_isMeant (q : MemberQuery) (r : Ref) : ∃ y, Leaves w (isMeant q r) y := by
  refine exists_leaves_entry_bind r (fun e => ?_)
  split
  · exact ⟨_, leaves_pure _⟩
  · exact ⟨_, leaves_throw _⟩

theorem exists_leaves_anyMeant (q : MemberQuery) (kind : MemberKind) (rs : List Ref) :
    ∃ y, Leaves w (anyMeant q kind rs) y := by
  unfold anyMeant
  split
  · obtain ⟨ys, hys⟩ := exists_forall₂ (exists_leaves_isMeant q) rs
    exact ⟨_, leaves_anyM hys⟩
  · exact ⟨_, leaves_pure false⟩

theorem exists_leaves_isNamed (q : MemberQuery) (r : Ref) : ∃ y, Leaves w (isNamed q r) y := by
  refine exists_leaves_entry_bind r (fun e => ?_)
  split
  · exact ⟨_, leaves_pure _⟩
  · exact ⟨_, leaves_throw _⟩

/-- No question for a member changes the workspace. -/
theorem exists_leaves_hasMember (r : Ref) (q : MemberQuery) : ∃ y, Leaves w (hasMember r q) y := by
  have hor {x z : Work Bool} (hx : ∃ y, Leaves w x y) (hz : ∃ y, Leaves w z y) : ∃ y, Leaves w (x <||> z) y := by
    obtain ⟨y, hy⟩ := hx
    obtain ⟨u, hu⟩ := hz
    exact ⟨_, leaves_or hy hu⟩
  have hany := exists_leaves_anyMeant (w := w) q
  refine exists_leaves_entry_bind r (fun e => ?_)
  cases e with
  | classType d => exact hor (hany .field d.fields) (hany .property d.properties)
  | structType d => exact hor (hany .field d.fields) (hany .property d.properties)
  | interfaceType d => exact hany .property d.properties
  | enumType d =>
    obtain ⟨ys, hys⟩ := exists_forall₂ (exists_leaves_isNamed q) d.members
    exact ⟨_, leaves_anyM hys⟩
  | namespaceFile d =>
    exact hor (hany .classType d.classes) (hor (hany .structType d.structs)
      (hor (hany .interfaceType d.interfaces) (hany .enumType d.enums)))
  | _ => exact ⟨_, leaves_throw _⟩

theorem exists_leaves_inspect (r : Ref) (setting : Readable) : ∃ y, Leaves w (inspect r setting) y := by
  refine exists_leaves_entry_bind r (fun e => ?_)
  split
  · exact ⟨_, leaves_pure _⟩
  · exact ⟨_, leaves_throw _⟩

end Work

end CSharpDraft
