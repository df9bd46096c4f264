import CSharpDraft.Proofs.Draft.Order

/-!
# Calls for several things at once

The lists of a draft take one thing at a time, or several in one call. The call for several is accepted exactly if the
call for each of them is, and then leads where these lead one after the other; it is rejected as a whole otherwise.

* `Bulk` : several names or drafts for one list of a draft, with the calls for all of them (`Bulk.separate`,
  `Bulk.together`) and for each of them (`Bulk.singles`);
* `listedNames_eq_ok`, `fault_of_listedNames` : several names are checked one by one, except that a name that was left
  out is the fault wherever it stands;
* `Change.Additive` : to add several things is to add the first and then the others, whichever list it is;
* `Workspace.callEach_singles` : the run of the single calls, by induction on the things that are added;
* `callEach_bulk` : what follows for a call.
-/

set_option autoImplicit false

namespace CSharpDraft

open List (Forall₂)

/-! ## Checks of several names -/

theorem exists_of_checkEach_error {α β : Type} {check : α → Except Fault β} {as : List α} {f : Fault}
    (h : checkEach check as = .error f) : ∃ a ∈ as, check a = .error f := by
  induction as with
  | nil => cases h
  | cons a as ih =>
    rw [checkEach] at h
    cases ha : check a with
    | error g =>
      rw [ha] at h
      cases h
      exact ⟨a, List.mem_cons_self, ha⟩
    | ok b =>
      cases has : checkEach check as with
      | error g =>
        rw [ha, has] at h
        cases h
        obtain ⟨c, hc, hcf⟩ := ih has
        exact ⟨c, List.mem_cons_of_mem a hc, hcf⟩
      | ok bs =>
        rw [ha, has] at h
        cases h

/-! ## Arguments one by one, and in one list -/

theorem Value.ofOption_eq_item {α : Type} {t : Option α} {a : α} : Value.ofOption t = .item a ↔ t = some a := by
  cases t <;> simp [Value.ofOption]

theorem Value.nothing_mem_map {α : Type} {items : List (Option α)} :
    .nothing ∈ items.map Value.ofOption ↔ none ∈ items := by
  have hnothing (t : Option α) : Value.ofOption t = .nothing ↔ t = none := by cases t <;> simp [Value.ofOption]
  simp [hnothing]

namespace Bundle

variable {α : Type}

theorem items_together (items : List (Option α)) : (together items).items = items.map .ofOption := rfl

/-- Arguments none of which can be iterated over, except texts, stand for themselves, also where there is only one. -/
theorem items_of_single {b : Bundle α} (h : ∀ p ∈ b.passed, ∀ vs, p ≠ .several vs) :
    b.items = b.passed.map Passed.value := by
  unfold items
  split
  · next vs heq => exact absurd rfl (h (.several vs) (by rw [heq]; exact List.mem_singleton_self _) vs)
  · rfl

theorem items_separate (items : List (Option α)) : (separate items).items = items.map .ofOption := by
  rw [items_of_single]
  · exact List.map_map
  · intro p hp vs
    obtain ⟨t, -, rfl⟩ := List.mem_map.mp hp
    nofun

theorem items_texts (items : List (Option Text)) : (texts items).items = items.map .ofOption := by
  rw [items_of_single]
  · rw [texts, List.map_map]
    exact List.map_congr_left (fun t _ => by cases t <;> rfl)
  · intro p hp vs
    obtain ⟨t, -, rfl⟩ := List.mem_map.mp hp
    cases t <;> nofun

theorem collect_congr {argument : String} {b c : Bundle α} (h : b.items = c.items) :
    b.collect argument = c.collect argument := by
  rw [collect, collect, values, values, h]

theorem fault_of_values {argument : String} {b : Bundle α} {f : Fault} (h : b.values argument = .error f) :
    .nothing ∈ b.items ∧ f = .nullArgument argument.toList := by
  obtain ⟨v, hv, hf⟩ := exists_of_checkEach_error h
  cases v with
  | nothing =>
    cases hf
    exact ⟨hv, rfl⟩
  | item | other => cases hf

variable {b : Bundle α} {items : List (Option α)} (hb : b.items = items.map .ofOption)
include hb

theorem collect_eq_ok_iff {argument other : String} {as : List α} :
    b.collect argument = .ok as ↔ Forall₂ (fun t a => given other t = .ok a) items as := by
  rw [collect_eq_ok, hb, ← List.forall₂_eq_eq_eq, List.forall₂_map_left_iff, List.forall₂_map_right_iff]
  simp only [Value.ofOption_eq_item, given_eq_ok]

theorem fault_of_collect {argument : String} {f : Fault} (h : b.collect argument = .error f) :
    none ∈ items ∧ f = .nullArgument argument.toList := by
  rw [collect] at h
  cases hv : b.values argument with
  | error g =>
    rw [hv] at h
    cases h
    obtain ⟨hnothing, hf⟩ := fault_of_values hv
    rw [hb] at hnothing
    exact ⟨Value.nothing_mem_map.mp hnothing, hf⟩
  | ok vs =>
    rw [hv] at h
    obtain ⟨rfl, hno⟩ := values_eq_ok.mp hv
    obtain ⟨v, hv, hf⟩ := exists_of_checkEach_error h
    rw [hb] at hv hno
    obtain ⟨t, -, rfl⟩ := List.mem_map.mp hv
    cases t with
    | none => exact absurd hv hno
    | some a => cases hf

end Bundle

/-! ## Checks of several names -/

/-- A check that finds fault with a text that was left out or that comes to nothing, and knows the name of its argument
for its faults only. -/
structure ChecksText (check : String → Option Text → Except Fault Text) : Prop where
  missing (argument : String) : check argument none = .error (.nullArgument argument.toList)
  empty {argument : String} {t : Text} {f : Fault} :
    check argument (some t) = .error f → f = .emptyArgument argument.toList
  same {argument : String} {t : Option Text} {u : Text} (other : String) :
    check argument t = .ok u → check other t = .ok u

theorem nonBlank_eq_error {argument : String} {t : Text} {f : Fault} (h : nonBlank argument (some t) = .error f) :
    f = .emptyArgument argument.toList := by
  cases hb : Text.isBlank t with
  | true =>
    rw [show nonBlank argument (some t) = failIf (Text.isBlank t) _ >>= fun _ => .ok t from rfl, hb] at h
    cases h
    rfl
  | false =>
    rw [nonBlank_eq_ok.mpr ⟨rfl, hb⟩] at h
    cases h

theorem checksText_nonBlank : ChecksText nonBlank where
  missing _ := rfl
  empty := nonBlank_eq_error
  same _ h := nonBlank_eq_ok.mpr (nonBlank_eq_ok.mp h)

theorem checksText_usingName : ChecksText usingName where
  missing _ := rfl
  empty {argument t f} h := by
    cases ht : nonBlank argument (some t) with
    | error g =>
      rw [usingName, ht] at h
      cases h
      exact nonBlank_eq_error ht
    | ok u =>
      rw [usingName, ht] at h
      exact nonBlank_eq_error h
  same _ h := by
    simp only [usingName, bind_eq_ok, nonBlank_eq_ok] at h ⊢
    exact h

section Checks

variable {check : String → Option Text → Except Fault Text} (hcheck : ChecksText check) {b : Bundle Text}
  {items : List (Option Text)} (hb : b.items = items.map .ofOption)
include hcheck hb

theorem ChecksText.collectBy_eq_ok (argument other : String) {ns : List Text} :
    b.collectBy check argument = .ok ns ↔ Forall₂ (fun t n => check other t = .ok n) items ns := by
  rw [Bundle.collectBy_eq_ok, hb, List.forall₂_map_left_iff]
  simp only [Value.ofOption_eq_item]
  constructor
  · refine List.Forall₂.imp ?_
    rintro _ n ⟨t, rfl, hn⟩
    exact hcheck.same other hn
  · refine List.Forall₂.imp (fun t n hn => ?_)
    cases t with
    | none =>
      rw [hcheck.missing] at hn
      cases hn
    | some t => exact ⟨t, rfl, hcheck.same argument hn⟩

theorem ChecksText.fault_of_collectBy {argument : String} {f : Fault} (h : b.collectBy check argument = .error f) :
    f = if items.contains none then .nullArgument argument.toList else .emptyArgument argument.toList := by
  rw [Bundle.collectBy] at h
  cases hv : b.values argument with
  | error g =>
    rw [hv] at h
    cases h
    obtain ⟨hnothing, hf⟩ := Bundle.fault_of_values hv
    rw [hb] at hnothing
    rw [hf, if_pos (List.contains_iff_mem.mpr (Value.nothing_mem_map.mp hnothing))]
  | ok vs =>
    rw [hv] at h
    obtain ⟨rfl, hno⟩ := Bundle.values_eq_ok.mp hv
    obtain ⟨v, hv, hf⟩ := exists_of_checkEach_error h
    rw [hb] at hv hno
    rw [if_neg (fun hnone => hno (Value.nothing_mem_map.mpr (List.contains_iff_mem.mp hnone)))]
    obtain ⟨t, -, rfl⟩ := List.mem_map.mp hv
    cases t with
    | none => exact absurd hv hno
    | some t => exact hcheck.empty hf

end Checks

/-- The argument that a fault of several names for the list speaks of. -/
def NameList.argument : NameList → String
  | interfaces => "names"
  | constraints => "constraints"
  | usings => "usings"

/-- Names are checked for what they are, and not for how they are passed. -/
theorem listedNames_congr {list : NameList} {b c : Bundle Text} (h : b.items = c.items) :
    listedNames list b = listedNames list c := by
  cases list <;>
    simp only [listedNames, Bundle.collectNames, Bundle.collectUsings, Bundle.collectBy, Bundle.values, h]

section

variable {list : NameList} {b : Bundle Text} {items : List (Option Text)} (hb : b.items = items.map .ofOption)
include hb

/-- Several names are good if each of them is. -/
theorem listedNames_eq_ok {ns : List Text} :
    listedNames list b = .ok ns ↔ Forall₂ (fun t n => listedName list t = .ok n) items ns := by
  cases list with
  | interfaces => exact checksText_nonBlank.collectBy_eq_ok hb "names" "name"
  | constraints => exact checksText_nonBlank.collectBy_eq_ok hb "constraints" "constraint"
  | usings => exact checksText_usingName.collectBy_eq_ok hb "usings" "using"

theorem fault_of_listedNames {f : Fault} (h : listedNames list b = .error f) :
    f = if items.contains none then .nullArgument list.argument.toList else .emptyArgument list.argument.toList := by
  cases list with
  | interfaces => exact checksText_nonBlank.fault_of_collectBy hb h
  | constraints => exact checksText_nonBlank.fault_of_collectBy hb h
  | usings => exact checksText_usingName.fault_of_collectBy hb h

end

/-! ## Changes that add several things -/

/-- A change that adds things to one list: to add several is to add the first and then the others. -/
structure Change.Additive {β : Type} (add : List β → Change) : Prop where
  setting (bs : List β) : (add bs).setting = (add []).setting
  update_nil (x : Cell) : (add []).update x = x
  update_cons (b : β) (bs : List β) (x : Cell) : (add (b :: bs)).update x = (add bs).update ((add [b]).update x)
  admits_cons (w : Workspace) (b : β) (bs : List β) :
    w.admits (add (b :: bs)) = (w.admits (add [b]) && w.admits (add bs))

theorem additive_addNames (list : NameList) : Change.Additive (.addNames list) where
  setting _ := rfl
  update_nil x := by cases x <;> simp [Change.update]
  update_cons n ns x := by cases x <;> simp [Change.update]
  admits_cons _ _ _ := rfl

theorem additive_addChildren (list : ChildList) : Change.Additive (.addChildren list) where
  setting _ := rfl
  update_nil x := by cases x <;> simp [Change.update]
  update_cons r rs x := by cases x <;> simp [Change.update]
  admits_cons w r rs := by
    change (r :: rs).all (w.holds list.kind) = ([r].all (w.holds list.kind) && rs.all (w.holds list.kind))
    rw [List.all_cons, List.all_cons, List.all_nil, Bool.and_true]

section Additive

variable {β : Type} {add : List β → Change} (hadd : Change.Additive add)
include hadd

theorem Change.Additive.apply_nil (p : Setting × Cell) : (add []).apply p = p := by
  rw [Change.apply, hadd.update_nil, ite_self]

theorem Change.Additive.apply_cons (b : β) (bs : List β) (p : Setting × Cell) :
    (add (b :: bs)).apply p = (add bs).apply ((add [b]).apply p) := by
  simp only [Change.apply, hadd.setting (b :: bs), hadd.setting [b], hadd.setting bs]
  rw [hadd.update_cons b bs]
  split
  · rfl
  · rfl

theorem Change.Additive.eq_of_change?_nil {e f : Entry} (h : e.change? (add []) = some f) : f = e := by
  refine Entry.eq_of_cells (Entry.kind_change? h) ?_
  rw [Entry.cells_change? h, funext hadd.apply_nil]
  exact List.map_id _

theorem Change.Additive.change?_cons (e : Entry) (b : β) (bs : List β) :
    e.change? (add (b :: bs)) = (e.change? (add [b])).bind (·.change? (add bs)) := by
  have hall := e.isSome_change? (add (b :: bs))
  have hfirst := e.isSome_change? (add [b])
  rw [hadd.setting] at hall hfirst
  cases hf : e.change? (add [b]) with
  | none =>
    rw [hf, ← hall] at hfirst
    exact Option.isNone_iff_eq_none.mp (by simpa using hfirst)
  | some f =>
    have hothers := f.isSome_change? (add bs)
    rw [hadd.setting, Entry.kind_change? hf, ← hfirst, hf] at hothers
    obtain ⟨g, hg⟩ := Option.isSome_iff_exists.mp hothers
    rw [hf, ← hall] at hfirst
    obtain ⟨k, hk⟩ := Option.isSome_iff_exists.mp hfirst.symm
    rw [Option.bind_some, hg, hk]
    refine congrArg some (Entry.eq_of_cells ?_ ?_)
    · rw [Entry.kind_change? hk, Entry.kind_change? hg, Entry.kind_change? hf]
    · rw [Entry.cells_change? hk, Entry.cells_change? hg, Entry.cells_change? hf, List.map_map]
      exact List.map_congr_left (fun p _ => hadd.apply_cons b bs p)

end Additive

namespace Workspace

/-- The draft is there and has the setting. -/
def Offers (w : Workspace) (r : Ref) (s : Setting) : Prop := ∃ k, w.kinds[r.index]? = some k ∧ s ∈ k.settings

theorem exists_change {w : Workspace} {r : Ref} {c : Change} (hoffers : w.Offers r c.setting)
    (hadmits : w.admits c = true) : ∃ v, w.change r c = .ok v := by
  obtain ⟨k, hk, hsetting⟩ := hoffers
  have hmap := w.map_change r c
  rw [if_pos ⟨hadmits, by simp [hk, hsetting]⟩] at hmap
  cases hc : w.change r c with
  | ok v => exact ⟨v, rfl⟩
  | error f =>
    rw [hc] at hmap
    cases hmap

section Additive

variable {β : Type} {add : List β → Change} (hadd : Change.Additive add)
include hadd

theorem eq_of_change_nil {w v : Workspace} {r : Ref} (h : w.change r (add []) = .ok v) : v = w := by
  obtain ⟨-, e, f, he, hf, rfl⟩ := change_eq_ok h
  obtain rfl := hadd.eq_of_change?_nil hf
  apply eq_of_entry?
  intro q
  rw [entry?_set]
  split
  · next hq => rw [hq, he, Option.map_some]
  · rfl

/-- The first of several things is added on its own, and the others behind it. -/
theorem exists_change_of_cons {w v : Workspace} {r : Ref} {b : β} {bs : List β}
    (h : w.change r (add (b :: bs)) = .ok v) : ∃ u, w.change r (add [b]) = .ok u ∧ u.change r (add bs) = .ok v := by
  obtain ⟨hadmits, e, g, he, hg, rfl⟩ := change_eq_ok h
  rw [hadd.admits_cons, Bool.and_eq_true] at hadmits
  rw [hadd.change?_cons] at hg
  obtain ⟨f, hf, hg⟩ := Option.bind_eq_some_iff.mp hg
  have hfirst : w.change r (add [b]) = .ok ⟨w.entries.set r.index f⟩ := by
    rw [change, if_pos hadmits.1, he, Option.bind_some, hf]
  refine ⟨_, hfirst, ?_⟩
  have hentry : Workspace.entry? ⟨w.entries.set r.index f⟩ r = some f := by
    rw [entry?_set, if_pos rfl, he, Option.map_some]
  rw [change, if_pos ((admits_congr (kinds_change hfirst) _).trans hadmits.2), hentry, Option.bind_some, hg]
  simp only [List.set_set]

/-- Where several things can be added in one call, the calls for each of them are accepted one after the other and lead
to the same workspace. -/
theorem callEach_singles {α : Type} {check : Option α → Except Fault β} {single : Option α → Call Ref}
    (hsingle : ∀ t b, check t = .ok b → (single t).change = .ok (add [b])) {items : List (Option α)} {bs : List β}
    (h : Forall₂ (fun t b => check t = .ok b) items bs) {w v : Workspace} {r : Ref}
    (hv : w.change r (add bs) = .ok v) :
    w.callEach ((items.map single).map (fun c => (r, c))) = (v, items.map (fun _ => .ok ())) := by
  induction h generalizing w with
  | nil =>
    rw [eq_of_change_nil hadd hv]
    rfl
  | @cons t b items bs hb hbs ih =>
    obtain ⟨u, hu, hv⟩ := exists_change_of_cons hadd hv
    have hcall : w.call r (single t) = .ok u := by
      rw [call, hsingle t b hb]
      exact hu
    rw [List.map_cons, List.map_cons, callEach_cons_ok hcall, ih hv, List.map_cons]

/-- A call that adds things to a list that the draft has adds all of them, as the calls for each of them do, or none. -/
theorem callEach_whole {α : Type} (check : Option α → Except Fault β) {single : Option α → Call Ref}
    (hsingle : ∀ t, (single t).change = (check t).map (fun b => add [b])) (all : Except Fault (List β))
    {whole : Call Ref} (hwhole : whole.change = all.map add) {items : List (Option α)}
    (hok : ∀ bs, all = .ok bs ↔ Forall₂ (fun t b => check t = .ok b) items bs) {fault : Fault}
    (hfault : ∀ f, all = .error f → f = fault) {w : Workspace} {r : Ref} (hoffers : w.Offers r (add []).setting)
    (hadmits : ∀ bs, all = .ok bs → w.admits (add bs) = true) :
    w.callEach [(r, whole)] =
      if ∀ c ∈ items.map single, w.answer (r, c) = .ok () then
        ((w.callEach ((items.map single).map (fun c => (r, c)))).1, [.ok ()])
      else (w, [.error fault]) := by
  cases hall : all with
  | ok bs =>
    have hbs := (hok bs).mp hall
    obtain ⟨v, hv⟩ : ∃ v, w.change r (add bs) = .ok v := by
      refine exists_change ?_ (hadmits bs hall)
      rwa [hadd.setting]
    have hcall : w.call r whole = .ok v := by
      rw [call, hwhole, hall]
      exact hv
    have hrun := callEach_singles hadd (fun t b hb => by rw [hsingle, hb, Except.map]) hbs hv
    have hanswers := answers_callEach w ((items.map single).map (fun c => (r, c)))
    rw [hrun, List.map_map, List.map_map] at hanswers
    have haccepted : ∀ c ∈ items.map single, w.answer (r, c) = .ok () := by
      rw [List.forall_mem_map]
      exact fun t ht => (List.map_inj_left.mp hanswers t ht).symm
    rw [if_pos haccepted, hrun, callEach_cons_ok hcall]
    rfl
  | error f =>
    have hcall : w.call r whole = .error fault := by
      rw [call, hwhole, hall, hfault f hall]
      rfl
    obtain ⟨t, ht, g, htg⟩ : ∃ t ∈ items, ∃ g, check t = .error g := by
      cases hitems : checkEach check items with
      | ok bs =>
        rw [(hok bs).mpr (checkEach_eq_ok.mp hitems)] at hall
        cases hall
      | error g =>
        obtain ⟨t, ht, htg⟩ := exists_of_checkEach_error hitems
        exact ⟨t, ht, g, htg⟩
    have hrejected : w.answer (r, single t) = .error g := by
      rw [answer, call, hsingle, htg]
      rfl
    rw [if_neg (fun haccepted => ?_), callEach_cons_error hcall]
    · rfl
    · rw [haccepted _ (List.mem_map_of_mem ht)] at hrejected
      cases hrejected

end Additive

end Workspace

/-! ## Calls -/

/-- Several names or drafts for a list of a draft; some of them may have been left out. -/
inductive Bulk where
  | names (list : NameList) (items : List (Option Text))
  | children (list : ChildList) (items : List (Option Ref))
  deriving DecidableEq, Repr

namespace Bulk

/-- The call with the things as arguments of their own. -/
def separate : Bulk → Call Ref
  | names list items => .addNames list (.texts items)
  | children list items => .addChildren list (.separate items)

/-- The call with the things as one list. -/
def together : Bulk → Call Ref
  | names list items => .addNames list (.together items)
  | children list items => .addChildren list (.together items)

/-- The calls with one thing each. -/
def singles : Bulk → List (Call Ref)
  | names list items => items.map (.addName list)
  | children list items => items.map (.addChild list)

/-- Whether one of the things was left out. -/
def lacks : Bulk → Bool
  | names _ items => items.contains none
  | children _ items => items.contains none

/-- The argument that a fault of the call speaks of. -/
def argument : Bulk → String
  | names list _ => list.argument
  | children _ _ => "builders"

theorem change_together (b : Bulk) : b.together.change = b.separate.change := by
  cases b with
  | names list items =>
    have hitems := (Bundle.items_together items).trans (Bundle.items_texts items).symm
    rw [together, separate, Call.change, Call.change, listedNames_congr hitems]
  | children list items =>
    have hitems := (Bundle.items_together items).trans (Bundle.items_separate items).symm
    rw [together, separate, Call.change, Call.change, Bundle.collect_congr hitems]

/-- The draft has the list, and the drafts that are given for it are there and of the kind of the list. -/
def Fits (w : Workspace) (r : Ref) : Bulk → Prop
  | names list _ => w.Offers r (.names list)
  | children list items => w.Offers r (.children list) ∧ ∀ q, some q ∈ items → w.holds list.kind q = true

end Bulk

/-- A call for several things does the same whether they are given as arguments of their own or as one list. It is
accepted exactly if the call for each of them is, and then leads where these calls lead one after the other. Otherwise it
changes nothing, and its fault is a thing that was left out, if there is one, and else a blank text. -/
theorem callEach_bulk {w : Workspace} {r : Ref} {b : Bulk} (h : b.Fits w r) :
    w.callEach [(r, b.together)] = w.callEach [(r, b.separate)] ∧
      w.callEach [(r, b.separate)] =
        if ∀ c ∈ b.singles, w.answer (r, c) = .ok () then
          ((w.callEach (b.singles.map (fun c => (r, c)))).1, [.ok ()])
        else
          (w, [.error (if b.lacks then .nullArgument b.argument.toList else .emptyArgument b.argument.toList)]) := by
  have htogether : w.call r b.together = w.call r b.separate := by
    rw [Workspace.call, Workspace.call, b.change_together]
  refine ⟨by simp only [Workspace.callEach, htogether], ?_⟩
  cases b with
  | names list items =>
    have hitems := Bundle.items_texts items
    refine Workspace.callEach_whole (additive_addNames list) (listedName list) (fun t => ?_)
      (listedNames list (.texts items)) ?_ (fun _ => listedNames_eq_ok hitems)
      (fun f hf => fault_of_listedNames hitems hf) h (fun _ _ => rfl)
    · change (listedName list t >>= _) = _
      cases listedName list t <;> rfl
    · change (listedNames list (.texts items) >>= _) = _
      cases listedNames list (.texts items) <;> rfl
  | children list items =>
    have hitems := Bundle.items_separate items
    refine Workspace.callEach_whole (additive_addChildren list) (given "builder") (fun t => ?_)
      (Bundle.collect "builders" (.separate items)) ?_ (fun _ => Bundle.collect_eq_ok_iff hitems) (fun f hf => ?_) h.1
      (fun rs hrs => ?_)
    · cases t <;> rfl
    · change (Bundle.collect "builders" (.separate items) >>= _) = _
      cases Bundle.collect "builders" (.separate items) <;> rfl
    · obtain ⟨hnone, rfl⟩ := Bundle.fault_of_collect hitems hf
      exact (if_pos (List.contains_iff_mem.mpr hnone)).symm
    · have hgiven : Forall₂ (fun t q => given "builder" t = .ok q) items rs := (Bundle.collect_eq_ok_iff hitems).mp hrs
      refine List.all_eq_true.mpr (fun q hq => h.2 q ?_)
      obtain ⟨t, ht, htq⟩ := forall₂_exists_left hgiven q hq
      rw [given_eq_ok.mp htq] at ht
      exact ht

/-- A namespace without anything in it. -/
def bareNamespace : Workspace where
  entries := [.namespaceFile { name := some "Bank".toList }]

/-- The second name is nothing but a semicolon, so the first is not added either. -/
theorem callEach_bulk_usings :
    (Bulk.names .usings [some "System".toList, some " ; ".toList]).Fits bareNamespace ⟨0⟩ ∧
      bareNamespace.answer (⟨0⟩, .addName .usings (some "System".toList)) = .ok () ∧
      bareNamespace.callEach [(⟨0⟩, .addNames .usings (.together [some "System".toList, some " ; ".toList]))] =
        (bareNamespace, [.error (.emptyArgument "usings".toList)]) := by
  have hfits : (Bulk.names .usings [some "System".toList, some " ; ".toList]).Fits bareNamespace ⟨0⟩ :=
    ⟨.namespaceFile, rfl, by decide⟩
  obtain ⟨htogether, hseparate⟩ := callEach_bulk hfits
  exact ⟨hfits, by decide, htogether.trans (hseparate.trans (by decide))⟩

end CSharpDraft
