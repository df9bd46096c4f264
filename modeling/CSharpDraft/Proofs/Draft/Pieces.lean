import CSharpDraft.Proofs.Draft.Order
import CSharpDraft.Proofs.Draft.Plans
import CSharpDraft.Proofs.Fragment.Marks

/-!
# Texts in front of a semicolon

A `using` directive, an initial value and the expression of an accessor are given as text, and a semicolon is written
behind what becomes of it. Marks at the ends of the text are left out, so a text that was accepted because it is not blank
may leave nothing.

* `Slot`, `Slot.piece` : where such a text stands, and what becomes of it;
* `Slot.GivenIn` : the draft holds the text; each further call keeps it there unless it is about the same setting
  (`GivenIn.change?`, `Workspace.givenIn_callEach`);
* `closesLine_of_givenIn` : the piece is found at the end of a line of the source text;
* `piece_of_call` : for which texts the piece is empty or ends with a second semicolon.
-/

set_option autoImplicit false

namespace CSharpDraft

/-! ## Calls that give a piece -/

open Text (without isBlankChar)

/-- The places where a text that is given stands between fixed words and a semicolon. -/
inductive Slot where
  | directive
  | initializer
  | getter
  | setter
  deriving DecidableEq, Repr

namespace Slot

/-- The call that gives the text. -/
def call : Slot → Text → Call Ref
  | directive, t => .addName .usings (some t)
  | initializer, t => .setDefault (some t)
  | getter, t => .setGetter (some t)
  | setter, t => .setSetter (some t)

def isAccessor : Slot → Bool
  | directive | initializer => false
  | getter | setter => true

/-- The words in front of the piece. -/
def opening : Slot → Text
  | directive => "using ".toList
  | initializer => " = ".toList
  | getter => "get => ".toList
  | setter => "set => ".toList

/-- The piece that becomes of the text. -/
def piece : Slot → Text → Text
  | directive, t => Text.trimRight (Text.dropTrailing ';' (Text.trim t))
  | initializer, t => Fragment.formatDefault t
  | getter, t | setter, t => Fragment.formatExpression t

/-- The texts, apart from their blanks, that are accepted though nothing is left of them. -/
def voids : Slot → List Text
  | directive => []
  | initializer => [['='], [';'], ['=', ';']]
  | getter | setter => [[';']]

/-- The change that the call asks for. -/
def change : Slot → Text → Change
  | directive, t => .addNames .usings [directive.piece t]
  | initializer, t => .setDefault t
  | getter, t => .setGetter (some (.custom t))
  | setter, t => .setSetter (some (.custom t))

/-- Only for a directive it is checked that something is left of the text. -/
theorem change_call_eq_ok {slot : Slot} {t : Text} {x : Change} (h : (slot.call t).change = .ok x) :
    Text.isBlank t = false ∧ (slot = directive → Text.isBlank (directive.piece t) = false) ∧ x = slot.change t := by
  cases slot with
  | directive =>
    simp only [call, Call.change, listedName, usingName, bind_eq_ok, nonBlank_eq_ok, pure_eq_ok] at h
    obtain ⟨n, ⟨_, ⟨ht, hblank⟩, hn, hpiece⟩, rfl⟩ := h
    cases ht
    cases hn
    exact ⟨hblank, fun _ => hpiece, rfl⟩
  | initializer =>
    simp only [call, Call.change, bind_eq_ok, nonBlank_eq_ok, pure_eq_ok] at h
    obtain ⟨_, ⟨ht, hblank⟩, rfl⟩ := h
    cases ht
    exact ⟨hblank, fun hslot => absurd hslot (by decide), rfl⟩
  | getter | setter =>
    simp only [call, Call.change, accessorOf, bind_eq_ok, nonBlank_eq_ok, pure_eq_ok] at h
    obtain ⟨_, ⟨_, ⟨ht, hblank⟩, rfl⟩, rfl⟩ := h
    cases ht
    exact ⟨hblank, fun hslot => absurd hslot (by decide), rfl⟩

theorem ends_of_change {slot : Slot} {t : Text} {x : Change} (h : (slot.call t).change = .ok x) :
    (slot.piece t = [] ↔ without isBlankChar t ∈ slot.voids) ∧
      ((slot.piece t).getLast? = some ';' ↔ [';', ';'] <:+ without isBlankChar t) := by
  obtain ⟨hblank, hpiece, -⟩ := change_call_eq_ok h
  have hne : without isBlankChar t ≠ [] := by
    rw [Ne, Text.without_isBlankChar_eq_nil_iff, hblank]
    exact Bool.false_ne_true
  cases slot with
  | directive =>
    have hx : directive.piece t = [] ∨ Text.EndsSolid (directive.piece t) := Text.trimRight_eq_nil_or _
    have htrim : Text.trim t = [] ∨ Text.EndsSolid (Text.trim t) := Text.trimRight_eq_nil_or _
    refine ⟨⟨fun hnil => ?_, fun hmem => absurd hmem List.not_mem_nil⟩, (Text.ends_of_without hx ?_).2⟩
    · have hleft := hpiece rfl
      rw [hnil] at hleft
      cases hleft
    · rw [piece, Text.without_trimRight (fun _ h => h), Text.without_dropTrailing htrim, Text.without_trim (fun _ h => h)]
  | initializer =>
    obtain ⟨hnil, hlast⟩ := Fragment.ends_formatDefault t
    rw [List.mem_cons, or_iff_right hne] at hnil
    exact ⟨hnil, hlast⟩
  | getter | setter =>
    obtain ⟨hnil, hlast⟩ := Fragment.ends_formatExpression t
    rw [or_iff_right hne] at hnil
    exact ⟨hnil.trans List.mem_singleton.symm, hlast⟩

end Slot

/-! ## Lines that end with a piece -/

/-- A line of the text ends with `s`. -/
def ClosesLine (s text : Text) : Prop := ∃ ls, text = Text.unlines ls ∧ ∃ l ∈ ls, s <:+ l

theorem NamespaceDecl.closesLine_using {n : NamespaceDecl} {u : Text} (h : u ∈ n.usings) :
    ClosesLine ("using ".toList ++ u ++ [';']) n.render := by
  have hmem : "using ".toList ++ u ++ [';'] ∈ n.usings.map (fun u => "using ".toList ++ u ++ [';']) :=
    List.mem_map_of_mem h
  refine ⟨_, rfl, _, ?_, List.suffix_refl _⟩
  simp only [List.append_assoc, List.mem_append] at hmem ⊢
  exact Or.inl hmem

theorem PropertyDecl.closesLine_initializer {p : PropertyDecl} {v : Text} (h : p.defaultValue = some v) :
    ClosesLine (" = ".toList ++ Fragment.formatDefault v ++ [';']) (Text.unlines p.lines) := by
  have hinitializer : p.initializer = " = ".toList ++ Fragment.formatDefault v ++ [';'] := by rw [initializer, h]
  have hsome : p.defaultValue.isNone = false := by rw [h, Option.isNone_some]
  rw [← hinitializer]
  refine ⟨_, rfl, ?_⟩
  rw [lines, hsome]
  split
  · exact ⟨p.header ++ p.initializer, by simp, List.suffix_append _ _⟩
  · exact ⟨['}'] ++ p.initializer, by simp, List.suffix_append _ _⟩

/-- The words in front of the setter of a property. -/
def PropertyDecl.setterWords (p : PropertyDecl) : Text := phraseOf [(p.setterAccess.map Access.text).getD [], "set".toList]

theorem PropertyDecl.suffix_setterWords (p : PropertyDecl) : "set".toList <:+ p.setterWords := by
  unfold setterWords
  cases p.setterAccess with
  | none => exact List.suffix_refl _
  | some a => cases a <;> decide

/-- The lines of the accessors of a property are lines of the property. -/
theorem PropertyDecl.mem_lines_of_accessor {p : PropertyDecl} {l : Text}
    (h : l ∈ accessorLines "get".toList p.getter ++ accessorLines p.setterWords p.setter) : l ∈ p.lines := by
  unfold lines
  split
  · next hnone =>
    obtain ⟨hgetter, hsetter⟩ := Bool.and_eq_true_iff.mp hnone
    rw [Option.isNone_iff_eq_none.mp hgetter, Option.isNone_iff_eq_none.mp hsetter] at h
    cases h
  · refine List.mem_append_right _ (List.mem_append_left _ ?_)
    rw [List.append_assoc]
    exact List.mem_append_right _ h

theorem exists_mem_accessorLines {body : Text} (h : (Text.trim body).head? ≠ some '{') {word words : Text}
    (hword : word <:+ words) : ∃ l ∈ accessorLines words (some (.custom body)),
      word ++ " => ".toList ++ Fragment.formatExpression body ++ [';'] <:+ l := by
  obtain ⟨front, rfl⟩ := hword
  rw [accessorLines, Accessor.lines_custom h, List.map_singleton]
  exact ⟨_, List.mem_singleton_self _, Text.margin ++ front, by simp⟩

theorem PropertyDecl.closesLine_getter {p : PropertyDecl} {body : Text} (h : p.getter = some (.custom body))
    (hblock : (Text.trim body).head? ≠ some '{') :
    ClosesLine ("get => ".toList ++ Fragment.formatExpression body ++ [';']) (Text.unlines p.lines) := by
  obtain ⟨l, hl, hends⟩ := exists_mem_accessorLines hblock (List.suffix_refl "get".toList)
  rw [← h] at hl
  exact ⟨_, rfl, l, p.mem_lines_of_accessor (List.mem_append_left _ hl), hends⟩

theorem PropertyDecl.closesLine_setter {p : PropertyDecl} {body : Text} (h : p.setter = some (.custom body))
    (hblock : (Text.trim body).head? ≠ some '{') :
    ClosesLine ("set => ".toList ++ Fragment.formatExpression body ++ [';']) (Text.unlines p.lines) := by
  obtain ⟨l, hl, hends⟩ := exists_mem_accessorLines hblock p.suffix_setterWords
  rw [← h] at hl
  exact ⟨_, rfl, l, p.mem_lines_of_accessor (List.mem_append_right _ hl), hends⟩

/-! ## Runs of calls -/

namespace Slot

/-- The setting that holds the text. -/
def setting : Slot → Setting
  | directive => .names .usings
  | initializer => .defaultValue
  | getter => .getter
  | setter => .setter

/-- The draft holds the text that was given for the piece. -/
def GivenIn : Slot → Text → Entry → Prop
  | directive, t, .namespaceFile d => directive.piece t ∈ d.usings
  | initializer, t, .propertyMember d => d.defaultValue = some t
  | getter, t, .propertyMember d => d.getter = some (.custom t)
  | setter, t, .propertyMember d => d.setter = some (.custom t)
  | _, _, _ => False

variable {slot : Slot} {t : Text}

/-- The text stays where it is until it is replaced by another; a directive is never replaced. -/
theorem GivenIn.change? {e f : Entry} {x : Change} (h : slot.GivenIn t e) (hf : e.change? x = some f)
    (hx : slot = directive ∨ x.setting ≠ slot.setting) : slot.GivenIn t f := by
  cases slot with
  | directive =>
    cases e with
    | namespaceFile d =>
      obtain ⟨d', hd, rfl⟩ := Option.map_eq_some_iff.mp hf
      unfold NamespaceDraft.change? at hd
      split at hd <;> cases hd <;> first | exact h | exact List.mem_append_left _ h
    | _ => exact h.elim
  | initializer | getter | setter =>
    cases e with
    | propertyMember d =>
      have hother := hx.resolve_left (by decide)
      obtain ⟨d', hd, rfl⟩ := Option.map_eq_some_iff.mp hf
      unfold PropertyDraft.change? at hd
      split at hd <;> cases hd <;> first | exact h | exact absurd rfl hother
    | _ => exact h.elim

end Slot

namespace Workspace

theorem entry?_call {w v : Workspace} {r : Ref} {c : Call Ref} (h : w.call r c = .ok v) :
    ∃ x e f, c.change = .ok x ∧ w.entry? r = some e ∧ e.change? x = some f ∧
      ∀ q, v.entry? q = if q = r then some f else w.entry? q := by
  obtain ⟨x, hx, hchange⟩ := bind_eq_ok.mp h
  obtain ⟨-, e, f, he, hf, rfl⟩ := change_eq_ok hchange
  refine ⟨x, e, f, hx, he, hf, fun q => ?_⟩
  rw [entry?_set, he, Option.map_some]

variable {slot : Slot} {t : Text} {r : Ref}

theorem givenIn_of_call {w v : Workspace} (h : w.call r (slot.call t) = .ok v) :
    ∃ e, v.entry? r = some e ∧ slot.GivenIn t e := by
  obtain ⟨x, e, f, hx, -, hf, hv⟩ := entry?_call h
  refine ⟨f, by rw [hv, if_pos rfl], ?_⟩
  obtain ⟨-, -, rfl⟩ := Slot.change_call_eq_ok hx
  cases slot with
  | directive =>
    cases e <;> cases hf
    exact List.mem_append_right _ (List.mem_singleton_self _)
  | initializer | getter | setter =>
    cases e <;> cases hf
    exact rfl

theorem givenIn_callEach {xs : List (Ref × Call Ref)}
    (hxs : slot = .directive ∨ ∀ y ∈ xs, isAbout r slot.setting y = false) {w : Workspace} {e : Entry}
    (he : w.entry? r = some e) (h : slot.GivenIn t e) :
    ∃ f, Workspace.entry? (w.callEach xs).1 r = some f ∧ slot.GivenIn t f := by
  induction xs generalizing w e with
  | nil => exact ⟨e, he, h⟩
  | cons y xs ih =>
    obtain ⟨q, c⟩ := y
    have hrest := hxs.imp_right (fun hall y hy => hall y (List.mem_cons_of_mem _ hy))
    cases hcall : w.call q c with
    | error g =>
      rw [callEach_cons_error hcall]
      exact ih hrest he h
    | ok v =>
      rw [callEach_cons_ok hcall]
      obtain ⟨x, d, f, hx, hd, hf, hv⟩ := entry?_call hcall
      by_cases hqr : r = q
      · subst hqr
        obtain rfl : d = e := Option.some.inj (hd.symm.trans he)
        have hsetting : slot = .directive ∨ x.setting ≠ slot.setting := by
          refine hxs.imp_right (fun hall heq => ?_)
          have habout := hall _ List.mem_cons_self
          rw [Call.setting_change hx] at heq
          simp [isAbout, heq] at habout
        exact ih hrest (by rw [hv, if_pos rfl]) (h.change? hf hsetting)
      · exact ih hrest (by rw [hv, if_neg hqr, he]) h

theorem render_of_propertyMember {w : Workspace} {d : PropertyDraft Ref} (he : w.entry? r = some (.propertyMember d))
    {purpose : Purpose} {text : Text} (h : w.render r purpose = .ok text) :
    ∃ p : PropertyDecl, text = Text.unlines p.lines ∧ p.getter = d.getter ∧ p.setter = d.setter ∧
      p.defaultValue = d.defaultValue := by
  obtain ⟨decl, hbuild, hrender⟩ := bind_eq_ok.mp h
  unfold build at hbuild
  rw [he] at hbuild
  obtain ⟨plan, p, hplan, hp, rfl⟩ := buildPlan_eq_ok.mp hbuild
  rw [PropertyDraft.build_eq_ok] at hp
  unfold property? at hplan
  rw [he] at hplan
  simp only [Option.pure_def, Option.bind_eq_bind, Option.bind_eq_some_iff, Option.some.injEq] at hplan
  obtain ⟨ts, -, rfl⟩ := hplan
  cases hrender
  exact ⟨p, rfl, hp.getter, hp.setter, hp.defaultValue⟩

theorem render_of_namespaceFile {w : Workspace} {d : NamespaceDraft Ref Ref Ref Ref}
    (he : w.entry? r = some (.namespaceFile d)) {purpose : Purpose} {text : Text} (h : w.render r purpose = .ok text) :
    ∃ n : NamespaceDecl, text = n.render ∧ n.usings = d.usings := by
  obtain ⟨decl, hbuild, hrender⟩ := bind_eq_ok.mp h
  unfold build at hbuild
  rw [he] at hbuild
  obtain ⟨plan, n, hplan, hn, rfl⟩ := buildPlan_eq_ok.mp hbuild
  rw [NamespaceDraft.build_eq_ok] at hn
  unfold namespace? at hplan
  rw [he] at hplan
  simp only [Option.pure_def, Option.bind_eq_bind, Option.bind_eq_some_iff, Option.some.injEq] at hplan
  obtain ⟨_, -, _, -, _, -, _, -, rfl⟩ := hplan
  cases hrender
  exact ⟨n, rfl, hn.usings⟩

end Workspace

/-! ## In front of the semicolon -/

theorem closesLine_of_givenIn {slot : Slot} {t : Text} {w : Workspace} {r : Ref} {e : Entry} (he : w.entry? r = some e)
    (h : slot.GivenIn t e) (hblock : slot.isAccessor = true → (Text.trim t).head? ≠ some '{')
    {purpose : Workspace.Purpose} {text : Text} (hrender : w.render r purpose = .ok text) :
    ClosesLine (slot.opening ++ slot.piece t ++ [';']) text := by
  cases slot with
  | directive =>
    cases e with
    | namespaceFile d =>
      obtain ⟨n, rfl, husings⟩ := Workspace.render_of_namespaceFile he hrender
      exact NamespaceDecl.closesLine_using (husings ▸ h)
    | _ => exact h.elim
  | initializer =>
    cases e with
    | propertyMember d =>
      obtain ⟨p, rfl, -, -, hvalue⟩ := Workspace.render_of_propertyMember he hrender
      exact PropertyDecl.closesLine_initializer (hvalue.trans h)
    | _ => exact h.elim
  | getter =>
    cases e with
    | propertyMember d =>
      obtain ⟨p, rfl, hgetter, -, -⟩ := Workspace.render_of_propertyMember he hrender
      exact PropertyDecl.closesLine_getter (hgetter.trans h) (hblock rfl)
    | _ => exact h.elim
  | setter =>
    cases e with
    | propertyMember d =>
      obtain ⟨p, rfl, -, hsetter, -⟩ := Workspace.render_of_propertyMember he hrender
      exact PropertyDecl.closesLine_setter (hsetter.trans h) (hblock rfl)
    | _ => exact h.elim

/-- A text that is accepted stands in front of the semicolon in the form of its piece, whatever else is said about the
draft. Nothing is left of a text that has no characters but the marks, which only a directive does not accept; and of two
semicolons at the end one is left. -/
theorem piece_of_call {slot : Slot} {t : Text} {w v : Workspace} {r : Ref} (h : w.call r (slot.call t) = .ok v)
    (hblock : slot.isAccessor = true → (Text.trim t).head? ≠ some '{') :
    (slot.piece t = [] ↔ without isBlankChar t ∈ slot.voids) ∧
      ((slot.piece t).getLast? = some ';' ↔ [';', ';'] <:+ without isBlankChar t) ∧
      ∀ xs, (slot = .directive ∨ ∀ y ∈ xs, isAbout r slot.setting y = false) → ∀ purpose text,
        Workspace.render (v.callEach xs).1 r purpose = .ok text →
          ClosesLine (slot.opening ++ slot.piece t ++ [';']) text := by
  obtain ⟨x, -, -, hx, -⟩ := Workspace.entry?_call h
  obtain ⟨hnil, hlast⟩ := Slot.ends_of_change hx
  refine ⟨hnil, hlast, fun xs hxs purpose text hrender => ?_⟩
  obtain ⟨e, he, hgiven⟩ := Workspace.givenIn_of_call h
  obtain ⟨f, hf, hkept⟩ := Workspace.givenIn_callEach hxs he hgiven
  exact closesLine_of_givenIn hf hkept hblock hrender

/-- A property, and a namespace without types. -/
def countWorkspace : Workspace where
  entries := [
    .propertyMember { name := some "Count".toList, typeName := some "int".toList, setterAccess := some .priv },
    .namespaceFile { name := some "Shop".toList }]

/-- The body of a setter, on two lines. -/
def countBody : Text := "\n_count =\n  value ;".toList

def countSetWorkspace : Workspace where
  entries := [
    .propertyMember {
      name := some "Count".toList, typeName := some "int".toList, setterAccess := some .priv
      setter := some (.custom countBody) },
    .namespaceFile { name := some "Shop".toList }]

def countText : Text :=
  ("/// <summary>\n/// Kept.\n/// </summary>\n" ++
    "public int Count\n\x7b\n    get;\n    private set => _count = value;\n\x7d").toList

theorem piece_of_call_count :
    countWorkspace.call ⟨0⟩ (Slot.setter.call countBody) = .ok countSetWorkspace ∧ Slot.setter.piece countBody ≠ [] ∧
      ClosesLine "set => _count = value;".toList countText := by
  have hcall : countWorkspace.call ⟨0⟩ (Slot.setter.call countBody) = .ok countSetWorkspace := rfl
  obtain ⟨hnil, -, hline⟩ := piece_of_call hcall (by decide)
  have hpiece : Slot.setter.piece countBody = "_count = value".toList := by decide
  have hends := hline [(⟨0⟩, .setSummary (some "Kept.".toList))] (by decide) {} countText rfl
  rw [hpiece] at hends
  exact ⟨hcall, by rw [Ne, hnil]; decide, hends⟩

/-- An initial value that is a mark only leaves nothing, and the second semicolon of a directive stays. -/
theorem not_piece_of_call :
    (∃ v, countWorkspace.call ⟨0⟩ (Slot.initializer.call [';']) = .ok v ∧
      v.render ⟨0⟩ {} = .ok "public int Count\n\x7b\n    get;\n    private set;\n\x7d = ;".toList) ∧
    (∃ v, countWorkspace.call ⟨1⟩ (Slot.directive.call "System;;".toList) = .ok v ∧
      v.render ⟨1⟩ {} = .ok "using System;;\n\nnamespace Shop\n\x7b\n\x7d".toList) ∧
    ¬ ∀ (slot : Slot) (t : Text) (w v : Workspace) (r : Ref), w.call r (slot.call t) = .ok v →
      (slot.isAccessor = true → (Text.trim t).head? ≠ some '{') →
        slot.piece t ≠ [] ∧ (slot.piece t).getLast? ≠ some ';' := by
  refine ⟨⟨_, rfl, rfl⟩, ⟨_, rfl, rfl⟩, fun hall => ?_⟩
  exact (hall .initializer [';'] countWorkspace _ ⟨0⟩ rfl (by decide)).1 rfl

end CSharpDraft
