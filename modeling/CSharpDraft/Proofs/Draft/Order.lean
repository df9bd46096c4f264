import CSharpDraft.Fragment.Grammar
import CSharpDraft.Proofs.Draft.Checked
import CSharpDraft.Proofs.Draft.Settings

/-!
# The order of calls

Calls that are about different settings, or about settings of different drafts, may be made in any order.

* `Workspace.callEach` : a run of calls with the answers to them. A call that is rejected leaves the workspace as it is;
* `SameCalls xs ys` : for each draft and each of its settings, the calls about that setting are the same in both runs, in
  the same order;
* `Workspace.answers_callEach` : a call is answered by the kinds of the drafts alone, and calls keep these, so all answers
  of a run are known before it starts;
* `Workspace.cells_callEach` : after a run, a setting holds what the calls about it make of what it held before, one after
  the other. Nothing else of the run matters to it, and the settings are all there is to a draft;
* `callEach_eq_of_sameCalls` : what follows for two runs of the same calls.
-/

set_option autoImplicit false

namespace CSharpDraft

/-! ## Runs of calls -/

namespace Workspace

/-- The workspace after the calls, with the answer to each; a call that is rejected leaves the workspace as it is. -/
def callEach (w : Workspace) : List (Ref × Call Ref) → Workspace × List (Except Fault Unit)
  | [] => (w, [])
  | (r, c) :: rest =>
    match w.call r c with
    | .ok v => ((callEach v rest).1, .ok () :: (callEach v rest).2)
    | .error f => ((callEach w rest).1, .error f :: (callEach w rest).2)

/-- Whether a call is accepted, and with which fault it is rejected otherwise. -/
def answer (w : Workspace) (x : Ref × Call Ref) : Except Fault Unit := (w.call x.1 x.2).map (fun _ => ())

end Workspace

/-- Whether a call is about the setting `s` of the draft `r`. -/
def isAbout (r : Ref) (s : Setting) (x : Ref × Call Ref) : Bool := x.1 = r ∧ x.2.setting = s

/-- Two runs in which the calls about each setting of each draft are the same, in the same order. -/
def SameCalls (xs ys : List (Ref × Call Ref)) : Prop := ∀ r s, xs.filter (isAbout r s) = ys.filter (isAbout r s)

/-! ## Answers -/

namespace Workspace

def kinds (w : Workspace) : List Kind := w.entries.map Entry.kind

theorem kind_entry? (w : Workspace) (r : Ref) : (w.entry? r).map Entry.kind = w.kinds[r.index]? := by
  rw [kinds, List.getElem?_map, entry?]

theorem holds_eq (w : Workspace) (k : Kind) (r : Ref) : w.holds k r = w.kinds[r.index]?.any (· == k) := by
  rw [← kind_entry?, holds]
  cases w.entry? r <;> rfl

theorem admits_congr {w v : Workspace} (h : w.kinds = v.kinds) (c : Change) : w.admits c = v.admits c := by
  cases c with
  | addChildren list children =>
    have hholds : w.holds list.kind = v.holds list.kind := funext (fun r => by rw [holds_eq, holds_eq, h])
    rw [admits, admits, hholds]
  | _ => rfl

theorem kinds_change {w v : Workspace} {r : Ref} {c : Change} (h : w.change r c = .ok v) : v.kinds = w.kinds := by
  obtain ⟨-, e, f, he, hf, rfl⟩ := change_eq_ok h
  apply List.ext_getElem?
  intro i
  simp only [kinds, List.map_set, List.getElem?_set, List.length_map, List.getElem?_map, Entry.kind_change? hf]
  split
  · next hi =>
    subst hi
    have hentry : w.entries[r.index]? = some e := he
    have hlt := (List.getElem?_eq_some_iff.mp hentry).1
    rw [if_pos hlt, hentry, Option.map_some]
  · rfl

theorem kinds_call {w v : Workspace} {r : Ref} {c : Call Ref} (h : w.call r c = .ok v) : v.kinds = w.kinds := by
  obtain ⟨x, -, hx⟩ := bind_eq_ok.mp h
  exact kinds_change hx

/-- A change is possible if the drafts that it adds are there, and the draft has the setting. -/
theorem map_change (w : Workspace) (r : Ref) (c : Change) :
    (w.change r c).map (fun _ => ()) =
      if w.admits c ∧ w.kinds[r.index]?.any (fun k => k.settings.contains c.setting) then .ok ()
      else .error .unsupported := by
  unfold change
  rw [← kind_entry?]
  cases he : w.entry? r with
  | none => cases w.admits c <;> rfl
  | some e =>
    have hsome := e.isSome_change? c
    rw [Option.bind_some, Option.map_some, Option.any_some, ← hsome]
    cases e.change? c <;> cases w.admits c <;> rfl

/-- The answer to a call depends on the kinds of the drafts only. -/
theorem answer_congr {w v : Workspace} (h : w.kinds = v.kinds) (x : Ref × Call Ref) : w.answer x = v.answer x := by
  unfold answer call
  cases x.2.change with
  | error f => rfl
  | ok c =>
    show (w.change x.1 c).map _ = (v.change x.1 c).map _
    rw [map_change, map_change, admits_congr h, h]

theorem callEach_cons_ok {w v : Workspace} {r : Ref} {c : Call Ref} (h : w.call r c = .ok v)
    (xs : List (Ref × Call Ref)) :
    w.callEach ((r, c) :: xs) = ((v.callEach xs).1, .ok () :: (v.callEach xs).2) := by
  rw [callEach, h]

theorem callEach_cons_error {w : Workspace} {r : Ref} {c : Call Ref} {f : Fault} (h : w.call r c = .error f)
    (xs : List (Ref × Call Ref)) :
    w.callEach ((r, c) :: xs) = ((w.callEach xs).1, .error f :: (w.callEach xs).2) := by
  rw [callEach, h]

/-- Each call of a run is answered as it would have been at the start. -/
theorem answers_callEach (w : Workspace) (xs : List (Ref × Call Ref)) : (w.callEach xs).2 = xs.map w.answer := by
  induction xs generalizing w with
  | nil => rfl
  | cons x xs ih =>
    obtain ⟨r, c⟩ := x
    rw [List.map_cons]
    cases h : w.call r c with
    | error f =>
      have hanswer : w.answer (r, c) = .error f := by rw [answer, h, Except.map]
      rw [callEach_cons_error h, ih w, hanswer]
    | ok v =>
      have hanswer : w.answer (r, c) = .ok () := by rw [answer, h, Except.map]
      have hsame : v.answer = w.answer := funext (answer_congr (kinds_call h))
      rw [callEach_cons_ok h, ih v, hanswer, hsame]

/-! ## Cells -/

/-- What a call makes of the cell of its setting: nothing, if it is rejected. -/
def effect (w : Workspace) (x : Cell) (y : Ref × Call Ref) : Cell :=
  match y.2.change, w.answer y with
  | .ok c, .ok _ => c.update x
  | _, _ => x

theorem effect_congr {w v : Workspace} (h : w.kinds = v.kinds) : w.effect = v.effect := by
  funext x y
  rw [effect, effect, answer_congr h]

/-- What a setting of the draft `r` holds after a run of calls. -/
def settle (w : Workspace) (xs : List (Ref × Call Ref)) (r : Ref) (p : Setting × Cell) : Setting × Cell :=
  (p.1, (xs.filter (isAbout r p.1)).foldl w.effect p.2)

theorem settle_cons_of_other {w : Workspace} {r : Ref} {p : Setting × Cell} {x : Ref × Call Ref}
    (h : isAbout r p.1 x = false) (xs : List (Ref × Call Ref)) : w.settle (x :: xs) r p = w.settle xs r p := by
  rw [settle, List.filter_cons_of_neg (by simp [h]), settle]

theorem settle_cons_of_rejected {w : Workspace} {x : Ref × Call Ref} {f : Fault} (h : w.answer x = .error f)
    (xs : List (Ref × Call Ref)) (r : Ref) (p : Setting × Cell) : w.settle (x :: xs) r p = w.settle xs r p := by
  cases habout : isAbout r p.1 x with
  | false => exact settle_cons_of_other habout xs
  | true =>
    have hid : w.effect p.2 x = p.2 := by
      rw [effect, h]
      cases x.2.change <;> rfl
    rw [settle, List.filter_cons_of_pos habout, List.foldl_cons, hid, settle]

/-- An accepted call on a draft rewrites its cells, and the calls after it go on from there. -/
theorem settle_cons_of_accepted {w : Workspace} {r : Ref} {c : Call Ref} {x : Change} (hx : c.change = .ok x)
    (h : w.answer (r, c) = .ok ()) (xs : List (Ref × Call Ref)) (p : Setting × Cell) :
    w.settle ((r, c) :: xs) r p = w.settle xs r (x.apply p) := by
  have hsetting : x.setting = c.setting := Call.setting_change hx
  by_cases hp : p.1 = c.setting
  · have habout : isAbout r p.1 (r, c) = true := by simp [isAbout, hp]
    have hupdate : w.effect p.2 (r, c) = x.update p.2 := by rw [effect, hx, h]
    rw [settle, List.filter_cons_of_pos habout, List.foldl_cons, hupdate, settle, Change.apply, hsetting, if_pos hp]
  · have habout : isAbout r p.1 (r, c) = false := by
      simp only [isAbout, true_and, decide_eq_false_iff_not]
      exact fun hs => hp hs.symm
    rw [settle_cons_of_other habout, Change.apply, hsetting, if_neg hp]

theorem entry?_set (w : Workspace) (r q : Ref) (e : Entry) :
    Workspace.entry? ⟨w.entries.set r.index e⟩ q = if q = r then (w.entry? r).map (fun _ => e) else w.entry? q := by
  obtain ⟨i⟩ := r
  obtain ⟨j⟩ := q
  unfold entry?
  simp only [List.getElem?_set, Ref.mk.injEq]
  by_cases hij : i = j
  · subst hij
    by_cases hlt : i < w.entries.length
    · simp [hlt]
    · simp [hlt]
  · simp [hij, Ne.symm hij]

/-- After a run of calls, each setting of a draft holds what the calls about it make of what it held before. -/
theorem cells_callEach {w : Workspace} (xs : List (Ref × Call Ref)) {r : Ref} {e : Entry} (he : w.entry? r = some e) :
    ∃ f, Workspace.entry? (w.callEach xs).1 r = some f ∧ f.kind = e.kind ∧ f.cells = e.cells.map (w.settle xs r) := by
  induction xs generalizing w e with
  | nil => exact ⟨e, he, rfl, (List.map_id _).symm⟩
  | cons x xs ih =>
    obtain ⟨q, c⟩ := x
    cases h : w.call q c with
    | error g =>
      have hanswer : w.answer (q, c) = .error g := by rw [answer, h, Except.map]
      rw [callEach_cons_error h, funext (settle_cons_of_rejected hanswer xs r)]
      exact ih he
    | ok v =>
      have hanswer : w.answer (q, c) = .ok () := by rw [answer, h, Except.map]
      have hsettle : v.settle xs r = w.settle xs r := by
        funext p
        rw [settle, settle, effect_congr (kinds_call h)]
      obtain ⟨y, hy, hchange⟩ := bind_eq_ok.mp h
      obtain ⟨-, d, d', hd, hd', rfl⟩ := change_eq_ok hchange
      rw [callEach_cons_ok h]
      by_cases hqr : r = q
      · subst hqr
        obtain rfl : d = e := Option.some.inj (hd.symm.trans he)
        have hentry : Workspace.entry? ⟨w.entries.set r.index d'⟩ r = some d' := by
          rw [entry?_set, if_pos rfl, hd, Option.map_some]
        obtain ⟨f, hf, hkind, hcells⟩ := ih hentry
        refine ⟨f, hf, hkind.trans (Entry.kind_change? hd'), ?_⟩
        rw [hcells, Entry.cells_change? hd', List.map_map, hsettle]
        exact List.map_congr_left (fun p _ => (settle_cons_of_accepted hy hanswer xs p).symm)
      · have hentry : Workspace.entry? ⟨w.entries.set q.index d'⟩ r = some e := by
          rw [entry?_set, if_neg hqr, he]
        obtain ⟨f, hf, hkind, hcells⟩ := ih hentry
        refine ⟨f, hf, hkind, ?_⟩
        have hother (p : Setting × Cell) : isAbout r p.1 (q, c) = false := by simp [isAbout, Ne.symm hqr]
        rw [hcells, hsettle]
        exact List.map_congr_left (fun p _ => (settle_cons_of_other (hother p) xs).symm)

theorem entry?_callEach_eq_none {w : Workspace} (xs : List (Ref × Call Ref)) {r : Ref} (h : w.entry? r = none) :
    Workspace.entry? (w.callEach xs).1 r = none := by
  induction xs generalizing w with
  | nil => exact h
  | cons x xs ih =>
    obtain ⟨q, c⟩ := x
    cases hcall : w.call q c with
    | error f =>
      rw [callEach_cons_error hcall]
      exact ih h
    | ok v =>
      rw [callEach_cons_ok hcall]
      apply ih
      rw [← Option.map_eq_none_iff, kind_entry?, kinds_call hcall, ← kind_entry?, h, Option.map_none]

theorem eq_of_entry? {w v : Workspace} (h : ∀ r, w.entry? r = v.entry? r) : w = v := by
  obtain ⟨es⟩ := w
  obtain ⟨fs⟩ := v
  rw [Workspace.mk.injEq]
  exact List.ext_getElem? (fun i => h ⟨i⟩)

/-- Runs of the same calls end in the same workspace. -/
theorem callEach_fst_congr (w : Workspace) {xs ys : List (Ref × Call Ref)} (h : SameCalls xs ys) :
    (w.callEach xs).1 = (w.callEach ys).1 := by
  apply eq_of_entry?
  intro r
  cases he : w.entry? r with
  | none => rw [entry?_callEach_eq_none xs he, entry?_callEach_eq_none ys he]
  | some e =>
    obtain ⟨f, hf, hfkind, hfcells⟩ := cells_callEach xs he
    obtain ⟨g, hg, hgkind, hgcells⟩ := cells_callEach ys he
    have hsettle : w.settle xs r = w.settle ys r := by
      funext p
      rw [settle, settle, h r p.1]
    have hfg : f = g := Entry.eq_of_cells (hfkind.trans hgkind.symm) (by rw [hfcells, hgcells, hsettle])
    rw [hf, hg, hfg]

/-- The calls about a setting, with their answers. -/
theorem filter_zip_callEach (w : Workspace) (xs : List (Ref × Call Ref)) (r : Ref) (s : Setting) :
    (xs.zip (w.callEach xs).2).filter (fun p => isAbout r s p.1) =
      (xs.filter (isAbout r s)).map (fun x => (x, w.answer x)) := by
  have hzip : xs.zip (xs.map w.answer) = xs.map (fun x => (x, w.answer x)) := by
    rw [← List.zip_map', List.map_id']
  rw [answers_callEach, hzip, List.filter_map]
  rfl

end Workspace

/-! ## Runs of the same calls -/

/-- Only the settings that some call is about have to be compared. -/
theorem sameCalls_iff {xs ys : List (Ref × Call Ref)} :
    SameCalls xs ys ↔
      ∀ x ∈ xs ++ ys, xs.filter (isAbout x.1 x.2.setting) = ys.filter (isAbout x.1 x.2.setting) := by
  constructor
  · exact fun h x _ => h x.1 x.2.setting
  · intro h r s
    by_cases hsome : ∃ x ∈ xs ++ ys, isAbout r s x = true
    · obtain ⟨x, hx, habout⟩ := hsome
      obtain ⟨rfl, rfl⟩ : x.1 = r ∧ x.2.setting = s := by simpa [isAbout] using habout
      exact h x hx
    · push Not at hsome
      rw [List.filter_eq_nil_iff.mpr (fun x hx => hsome x (List.mem_append_left ys hx)),
        List.filter_eq_nil_iff.mpr (fun y hy => hsome y (List.mem_append_right xs hy))]

instance (xs ys : List (Ref × Call Ref)) : Decidable (SameCalls xs ys) := decidable_of_iff _ sameCalls_iff.symm

/-- A call may be made before or after calls on another draft. -/
theorem sameCalls_append_singleton {x : Ref × Call Ref} {ys : List (Ref × Call Ref)} (h : ∀ y ∈ ys, y.1 ≠ x.1) :
    SameCalls (ys ++ [x]) (x :: ys) := by
  intro r s
  rw [List.filter_append]
  cases hx : isAbout r s x with
  | false => rw [List.filter_cons_of_neg (by simp [hx]), List.filter_cons_of_neg (by simp [hx]), List.filter_nil,
      List.append_nil]
  | true =>
    have hnil : ys.filter (isAbout r s) = [] := by
      rw [List.filter_eq_nil_iff]
      intro y hy habout
      simp only [isAbout, decide_eq_true_eq] at habout hx
      exact h y hy (habout.1.trans hx.1.symm)
    rw [List.filter_cons_of_pos hx, hnil, List.filter_cons_of_pos hx, hnil, List.filter_nil, List.nil_append]

/-- Drafts may be added to the lists of a draft in any interleaving that keeps the order in each list. -/
theorem sameCalls_addChild {as bs : List (ChildList × Option Ref)}
    (h : ∀ list, as.filter (fun a => a.1 = list) = bs.filter (fun b => b.1 = list)) (parent : Ref) :
    SameCalls (as.map (fun a => (parent, .addChild a.1 a.2))) (bs.map (fun b => (parent, .addChild b.1 b.2))) := by
  rw [sameCalls_iff]
  intro x hx
  obtain ⟨list, child, rfl⟩ : ∃ list child, x = (parent, .addChild list child) := by
    rcases List.mem_append.mp hx with hx | hx <;>
      · obtain ⟨a, -, rfl⟩ := List.mem_map.mp hx
        exact ⟨a.1, a.2, rfl⟩
  have habout : isAbout parent (Call.addChild list child).setting ∘
      (fun a : ChildList × Option Ref => (parent, .addChild a.1 a.2)) = fun a => decide (a.1 = list) := by
    funext a
    simp [isAbout, Call.setting]
  rw [List.filter_map, List.filter_map, habout, h list]

/-- The order of calls does not matter across settings: runs of the same calls answer them alike and lead to the same
workspace, so all drafts build and render alike. In particular a draft may be changed before or after it is added to
another, and drafts may be added to the lists of one draft in any interleaving. -/
theorem callEach_eq_of_sameCalls [Fragment.Parser] (w : Workspace) :
    (∀ xs ys, SameCalls xs ys →
      (∀ r s, (xs.zip (w.callEach xs).2).filter (fun p => isAbout r s p.1) =
        (ys.zip (w.callEach ys).2).filter (fun p => isAbout r s p.1)) ∧
      (w.callEach xs).1 = (w.callEach ys).1 ∧
      ∀ r purpose, (w.callEach xs).1.build r purpose = (w.callEach ys).1.build r purpose ∧
        (w.callEach xs).1.render r purpose = (w.callEach ys).1.render r purpose) ∧
    (∀ (child parent : Ref) (list : ChildList) (cs : List (Call Ref)), child ≠ parent → ∀ r purpose,
      (w.callEach (cs.map (fun c => (child, c)) ++ [(parent, .addChild list (some child))])).1.render r purpose =
        (w.callEach ((parent, .addChild list (some child)) :: cs.map (fun c => (child, c)))).1.render r purpose) ∧
    (∀ (parent : Ref) (as bs : List (ChildList × Option Ref)),
      (∀ list, as.filter (fun a => a.1 = list) = bs.filter (fun b => b.1 = list)) → ∀ r purpose,
      (w.callEach (as.map (fun a => (parent, .addChild a.1 a.2)))).1.render r purpose =
        (w.callEach (bs.map (fun b => (parent, .addChild b.1 b.2)))).1.render r purpose) := by
  refine ⟨fun xs ys h => ⟨fun r s => ?_, ?_, fun r purpose => ?_⟩, fun child parent list cs hne r purpose => ?_,
    fun parent as bs h r purpose => ?_⟩
  · rw [w.filter_zip_callEach, w.filter_zip_callEach, h r s]
  · exact w.callEach_fst_congr h
  · rw [w.callEach_fst_congr h]
    exact ⟨rfl, rfl⟩
  · have hother : ∀ y ∈ cs.map (fun c => (child, c)), y.1 ≠ parent := by
      intro y hy
      obtain ⟨c, -, rfl⟩ := List.mem_map.mp hy
      exact hne
    rw [w.callEach_fst_congr (sameCalls_append_singleton hother)]
  · rw [w.callEach_fst_congr (sameCalls_addChild h parent)]

/-- A class with a field and a property in it, none of which has been added to the other yet. -/
def loosePieces : Workspace where
  entries := [
    .fieldMember { name := some "_id".toList, typeName := some "int".toList },
    .propertyMember { name := some "Id".toList, typeName := some "int".toList },
    .classType { name := some "Account".toList }]

/-- The members are changed before they are added; one call is rejected. -/
def membersFirst : List (Ref × Call Ref) := [
  (⟨0⟩, .setFlag .isReadonly true), (⟨1⟩, .setGetter (some "_id".toList)), (⟨1⟩, .dropSetter),
  (⟨2⟩, .setName none), (⟨2⟩, .addChild .fields (some ⟨0⟩)), (⟨2⟩, .addChild .properties (some ⟨1⟩)),
  (⟨2⟩, .setName (some "Holder".toList))]

/-- The same calls; the members are changed after they are added. -/
def membersLast : List (Ref × Call Ref) := [
  (⟨2⟩, .addChild .properties (some ⟨1⟩)), (⟨2⟩, .setName none), (⟨2⟩, .addChild .fields (some ⟨0⟩)),
  (⟨2⟩, .setName (some "Holder".toList)), (⟨1⟩, .dropSetter), (⟨1⟩, .setGetter (some "_id".toList)),
  (⟨0⟩, .setFlag .isReadonly true)]

theorem callEach_eq_of_sameCalls_members :
    SameCalls membersFirst membersLast ∧
      (loosePieces.callEach membersFirst).2 =
        [.ok (), .ok (), .ok (), .error (.nullArgument "name".toList), .ok (), .ok (), .ok ()] ∧
      (∃ d, (loosePieces.callEach membersFirst).1.build ⟨2⟩ = .ok d) ∧
      (loosePieces.callEach membersFirst).1.render ⟨2⟩ = (loosePieces.callEach membersLast).1.render ⟨2⟩ := by
  have hsame : SameCalls membersFirst membersLast := by decide
  refine ⟨hsame, by decide, ⟨_, rfl⟩, ?_⟩
  exact (((callEach_eq_of_sameCalls loosePieces).1 membersFirst membersLast hsame).2.2 ⟨2⟩ {}).2

end CSharpDraft
