import CSharpDraft.Proofs.Draft.Plans
import Mathlib.Data.Int.Bitwise
import Mathlib.Data.List.Nodup
import Mathlib.Data.List.Perm.Subperm

/-!
# The values of enumerations

An enumeration of bits whose members were given no values gets them from `assignFlags`: zero for the first member, and a
bit of its own for each member behind it. So a combination of members can be taken apart again.

* `getElem?_assignFlags` : the member at each place, with its value;
* `map_withFlags` : nothing but the values is touched;
* `combination` : the bitwise or of the values of members. A bit of it is a bit of one of the members
  (`testBit_combination`), and members with a bit each are found again in it (`eq_of_combination_eq`);
* `values_of_build_enum` : what this means for enumerations that are built, with or without values of their own;
* `values_le_maxValue_iff` : the values of bits fit into 32 bits as long as there are at most 32 members.
-/

set_option autoImplicit false

namespace CSharpDraft

open List (Forall₂)

/-! ## Values by place -/

/-- The value of the member at a place of an enumeration of bits. -/
def bitValue : ℕ → ℤ
  | 0 => 0
  | i + 1 => 2 ^ i

theorem getElem?_flagValues {count i : ℕ} (h : i < count) :
    (flagValues count)[i]?.map (fun v : ℕ => (v : ℤ)) = some (bitValue i) := by
  rw [flagValues, Int.toNat_natCast, List.getElem?_map, List.getElem?_range h]
  cases i with
  | zero => rfl
  | succ i => simp [bitValue, Nat.one_shiftLeft]

theorem getElem?_assignFlags (ms : List EnumMemberDecl) (i : ℕ) :
    (assignFlags ms)[i]? = ms[i]?.map (fun m => { m with value := some (bitValue i) }) := by
  rw [assignFlags, List.getElem?_zipWith]
  cases hm : ms[i]? with
  | none => rfl
  | some m =>
    have hlt : i < ms.length := (List.getElem?_eq_some_iff.mp hm).1
    obtain ⟨v, hv, hbit⟩ := Option.map_eq_some_iff.mp (getElem?_flagValues hlt)
    rw [hv, ← hbit]
    rfl

/-- The values of bits change nothing but values. -/
theorem map_withFlags {β : Type} {f : EnumMemberDecl → β} (hf : ∀ m v, f { m with value := v } = f m) (isFlags : Bool)
    (ms : List EnumMemberDecl) : (withFlags isFlags ms).map f = ms.map f := by
  unfold withFlags
  split
  · apply List.ext_getElem?
    intro i
    rw [List.getElem?_map, List.getElem?_map, getElem?_assignFlags, Option.map_map]
    exact congrArg (fun g => ms[i]?.map g) (funext fun m => hf m _)
  · rfl

/-! ## Combinations -/

/-- The bitwise or of the values of members; a member without a value adds nothing. -/
def combination (ms : List EnumMemberDecl) : ℤ := ms.foldr (fun m bits => Int.lor (m.value.getD 0) bits) 0

theorem testBit_combination (ms : List EnumMemberDecl) (k : ℕ) :
    (combination ms).testBit k = ms.any (fun m => (m.value.getD 0).testBit k) := by
  induction ms with
  | nil => exact Nat.zero_testBit k
  | cons m ms ih => rw [combination, List.foldr_cons, Int.testBit_lor, List.any_cons, ← ih, combination]

theorem testBit_two_pow (i k : ℕ) : Int.testBit (2 ^ i) k = decide (i = k) := by
  have h : (2 : ℤ) ^ i = ((2 ^ i : ℕ) : ℤ) := by push_cast; rfl
  rw [h]
  exact Nat.testBit_two_pow

theorem two_pow_inj {i k : ℕ} : (2 : ℤ) ^ i = 2 ^ k ↔ i = k := by
  refine ⟨fun h => ?_, fun h => by rw [h]⟩
  have hbit := testBit_two_pow k i
  rw [← h, testBit_two_pow] at hbit
  simpa [eq_comm] using hbit

section Bits

variable {ms : List EnumMemberDecl} (hms : ∀ (i : ℕ) m, ms[i]? = some m → m.value = some (2 ^ i))
include hms

/-- Each bit of a combination is the value of one of its members. -/
theorem testBit_combination_iff {s : List EnumMemberDecl} (hs : s ⊆ ms) (k : ℕ) :
    (combination s).testBit k = true ↔ ∃ m ∈ s, m.value = some (2 ^ k) := by
  rw [testBit_combination, List.any_eq_true]
  refine exists_congr fun m => and_congr_right fun hm => ?_
  obtain ⟨i, hi⟩ := List.mem_iff_getElem?.mp (hs hm)
  rw [hms i m hi, Option.getD_some, testBit_two_pow, decide_eq_true_eq, Option.some.injEq, two_pow_inj]

/-- Members with the same value are the same. -/
theorem eq_of_value_eq {m n : EnumMemberDecl} (hm : m ∈ ms) (hn : n ∈ ms) (h : m.value = n.value) : m = n := by
  obtain ⟨i, hi⟩ := List.mem_iff_getElem?.mp hm
  obtain ⟨j, hj⟩ := List.mem_iff_getElem?.mp hn
  rw [hms i m hi, hms j n hj, Option.some.injEq, two_pow_inj] at h
  subst h
  exact Option.some.inj (hi.symm.trans hj)

theorem subset_of_combination_eq {s t : List EnumMemberDecl} (hs : s ⊆ ms) (ht : t ⊆ ms)
    (h : combination s = combination t) : s ⊆ t := by
  intro m hm
  obtain ⟨i, hi⟩ := List.mem_iff_getElem?.mp (hs hm)
  have hbit : (combination s).testBit i = true := (testBit_combination_iff hms hs i).mpr ⟨m, hm, hms i m hi⟩
  rw [h] at hbit
  obtain ⟨n, hn, hvalue⟩ := (testBit_combination_iff hms ht i).mp hbit
  rw [eq_of_value_eq hms (hs hm) (ht hn) ((hms i m hi).trans hvalue.symm)]
  exact hn

/-- The members of a combination can be told from it. -/
theorem eq_of_combination_eq (hnodup : ms.Nodup) {s t : List EnumMemberDecl} (hs : s.Sublist ms) (ht : t.Sublist ms)
    (h : combination s = combination t) : s = t := by
  have hst := subset_of_combination_eq hms hs.subset ht.subset h
  have hts := subset_of_combination_eq hms ht.subset hs.subset h.symm
  have hperm : s.Perm t :=
    (List.perm_ext_iff_of_nodup (hnodup.sublist hs) (hnodup.sublist ht)).mpr fun m => ⟨@hst m, @hts m⟩
  exact (List.Nodup.perm_iff_eq_of_sublist hnodup hs ht).mp hperm

end Bits

/-! ## Built enumerations -/

theorem withFlags_of_none {ms : List EnumMemberDecl} (h : ∀ m ∈ ms, m.value = none) :
    withFlags true ms = assignFlags ms := by
  have hall : ms.all (fun m => m.value.isNone) = true := by simpa using h
  rw [withFlags, hall]
  rfl

theorem withFlags_of_not {isFlags : Bool} {ms : List EnumMemberDecl}
    (h : ¬ (isFlags = true ∧ ∀ m ∈ ms, m.value = none)) : withFlags isFlags ms = ms := by
  rw [withFlags, if_neg]
  simpa using h

/-- Whether members have values is known before they are built. -/
theorem forall_value_eq_none {ds : List EnumMemberDraft} {ms : List EnumMemberDecl}
    (h : Forall₂ EnumMemberDraft.Builds ds ms) : (∀ m ∈ ms, m.value = none) ↔ ∀ d ∈ ds, d.value = none := by
  have hvalues : ds.map (·.value) = ms.map (·.value) := map_eq_of_forall₂ (fun hb => hb.value.symm) h
  rw [← List.forall_mem_map (P := fun v => v = none), ← hvalues, List.forall_mem_map]

namespace EnumDraft.Builds

variable {d : Plan.Enum} {e : EnumDecl}

/-- The members keep their names, their summaries and their order. -/
theorem members_eq (h : EnumDraft.Builds d e) :
    e.members.map (fun m => (some m.name, m.summary)) = d.members.map (fun m => (m.name, m.summary)) := by
  obtain ⟨ms, hms, -, hmembers⟩ := h.members
  rw [hmembers, map_withFlags (fun _ _ => rfl)]
  refine (map_eq_of_forall₂ (fun hb => ?_) hms).symm
  rw [hb.name.1, hb.summary]

theorem nodup_members (h : EnumDraft.Builds d e) : e.members.Nodup := by
  obtain ⟨ms, -, hnodup, hmembers⟩ := h.members
  rw [← map_withFlags (fun _ _ => rfl) d.isFlags, ← hmembers] at hnodup
  exact List.Nodup.of_map _ hnodup

theorem value_eq_bitValue (h : EnumDraft.Builds d e) (hflags : d.isFlags = true) (hnone : ∀ m ∈ d.members, m.value = none)
    {i : ℕ} {m : EnumMemberDecl} (hm : e.members[i]? = some m) : m.value = some (bitValue i) := by
  obtain ⟨ms, hms, -, hmembers⟩ := h.members
  rw [hflags, withFlags_of_none ((forall_value_eq_none hms).mpr hnone)] at hmembers
  rw [hmembers, getElem?_assignFlags] at hm
  obtain ⟨n, -, rfl⟩ := Option.map_eq_some_iff.mp hm
  rfl

theorem values_eq (h : EnumDraft.Builds d e) (hnot : ¬ (d.isFlags = true ∧ ∀ m ∈ d.members, m.value = none)) :
    e.members.map (·.value) = d.members.map (·.value) := by
  obtain ⟨ms, hms, -, hmembers⟩ := h.members
  rw [← forall_value_eq_none hms] at hnot
  rw [hmembers, withFlags_of_not hnot]
  exact (map_eq_of_forall₂ (fun hb => hb.value.symm) hms).symm

end EnumDraft.Builds

/-- An enumeration that builds has the members of its draft in their order. If it is one of bits and no member was given a
value, the first member is zero and each other one has the bit of its place, so different choices among the others have
different combinations; in all other cases each member has the value it was given, or none. -/
theorem values_of_build_enum {w : Workspace} {r : Ref} {purpose : Workspace.Purpose} {e : EnumDecl}
    (h : w.build r purpose = .ok (.ofEnum e)) :
    ∃ d, w.enum? r = some d ∧
      e.members.map (fun m => (some m.name, m.summary)) = d.members.map (fun m => (m.name, m.summary)) ∧
      ((d.isFlags = true ∧ ∀ m ∈ d.members, m.value = none) →
        (∀ m, e.members[0]? = some m → m.value = some 0) ∧
        (∀ (i : ℕ) m, e.members[i + 1]? = some m → m.value = some (2 ^ i)) ∧
        ∀ s t, s.Sublist e.members.tail → t.Sublist e.members.tail → s ≠ t → combination s ≠ combination t) ∧
      (¬ (d.isFlags = true ∧ ∀ m ∈ d.members, m.value = none) →
        e.members.map (·.value) = d.members.map (·.value)) := by
  obtain ⟨d, hd, hbuilds⟩ := Workspace.builds_of_build_eq_ok h
  refine ⟨d, hd, hbuilds.members_eq, ?_, hbuilds.values_eq⟩
  rintro ⟨hflags, hnone⟩
  have hbits : ∀ (i : ℕ) m, e.members[i + 1]? = some m → m.value = some (2 ^ i) :=
    fun _ _ hm => hbuilds.value_eq_bitValue hflags hnone hm
  refine ⟨fun m hm => hbuilds.value_eq_bitValue hflags hnone hm, hbits, fun s t hs ht hst heq => hst ?_⟩
  have htail : ∀ (i : ℕ) m, e.members.tail[i]? = some m → m.value = some (2 ^ i) := by
    intro i m hm
    rw [List.getElem?_tail] at hm
    exact hbits i m hm
  exact eq_of_combination_eq htail hbuilds.nodup_members.tail hs ht heq

/-- An enumeration of bits with four members that have no values of their own. -/
def permissionsWorkspace : Workspace where
  entries := [
    .enumMember { name := some "None".toList },
    .enumMember { name := some "Read".toList, summary := some "May look.".toList },
    .enumMember { name := some "Write".toList },
    .enumMember { name := some "Delete".toList },
    .enumType { name := some "Permissions".toList, isFlags := true, members := [⟨0⟩, ⟨1⟩, ⟨2⟩, ⟨3⟩] }]

/-- The enumeration that is built in `permissionsWorkspace`. -/
def permissions : EnumDecl where
  name := "Permissions".toList
  isFlags := true
  members := [
    { name := "None".toList, value := some 0 },
    { name := "Read".toList, value := some 1, summary := some "May look.".toList },
    { name := "Write".toList, value := some 2 },
    { name := "Delete".toList, value := some 4 }]

theorem values_of_build_enum_permissions :
    permissionsWorkspace.build ⟨4⟩ {} = .ok (.ofEnum permissions) ∧
      ∀ s t, s.Sublist permissions.members.tail → t.Sublist permissions.members.tail → s ≠ t →
        combination s ≠ combination t := by
  have hbuild : permissionsWorkspace.build ⟨4⟩ {} = .ok (.ofEnum permissions) := rfl
  obtain ⟨d, hd, -, hbits, -⟩ := values_of_build_enum hbuild
  have hflags : d.isFlags = true ∧ ∀ m ∈ d.members, m.value = none := by
    cases hd
    decide
  exact ⟨hbuild, (hbits hflags).2.2⟩

/-! ## Values of 32 bits -/

/-- The largest value in an enumeration that names no type for its values: they are integers of 32 bits. -/
def maxValue : ℤ := 2147483647

theorem bitValue_nonneg (i : ℕ) : 0 ≤ bitValue i := by
  cases i with
  | zero => decide
  | succ i => exact Int.pow_nonneg (by decide)

theorem bitValue_le_maxValue_iff {i : ℕ} : bitValue i ≤ maxValue ↔ i < 32 := by
  cases i with
  | zero => decide
  | succ i =>
    have hpow : 2 ^ i < 2 ^ 31 ↔ i < 31 := Nat.pow_lt_pow_iff_right (by decide)
    have hcast : (2 : ℤ) ^ i = (2 ^ i : ℕ) := by push_cast; rfl
    rw [bitValue, hcast, maxValue]
    omega

theorem EnumDraft.Builds.length_members {d : Plan.Enum} {e : EnumDecl} (h : EnumDraft.Builds d e) :
    e.members.length = d.members.length := by
  have hlength := congrArg List.length h.members_eq
  rwa [List.length_map, List.length_map] at hlength

/-- A value that an enumeration of bits gives to a member fits into 32 bits exactly if the member is one of the first 32.
So all of them fit exactly if there are no more members than that; the enumeration is built whether they fit or not. -/
theorem values_le_maxValue_iff {w : Workspace} {r : Ref} {purpose : Workspace.Purpose} {d : Plan.Enum} {e : EnumDecl}
    (h : w.build r purpose = .ok (.ofEnum e)) (hd : w.enum? r = some d) (hflags : d.isFlags = true)
    (hnone : ∀ m ∈ d.members, m.value = none) :
    (∀ (i : ℕ) m, e.members[i]? = some m → ∃ v, m.value = some v ∧ 0 ≤ v ∧ (v ≤ maxValue ↔ i < 32)) ∧
      ((∀ m ∈ e.members, ∃ v, m.value = some v ∧ v ≤ maxValue) ↔ d.members.length ≤ 32) := by
  obtain ⟨d', hd', hbuilds⟩ := Workspace.builds_of_build_eq_ok h
  cases hd.symm.trans hd'
  have hvalue : ∀ (i : ℕ) m, e.members[i]? = some m → m.value = some (bitValue i) :=
    fun i m hm => hbuilds.value_eq_bitValue hflags hnone hm
  refine ⟨fun i m hm => ⟨_, hvalue i m hm, bitValue_nonneg i, bitValue_le_maxValue_iff⟩, ?_⟩
  rw [← hbuilds.length_members]
  constructor
  · intro hfit
    by_contra hmany
    have hlast : 32 < e.members.length := by omega
    obtain ⟨v, hv, hle⟩ := hfit e.members[32] (List.getElem_mem hlast)
    rw [hvalue 32 _ (List.getElem?_eq_getElem hlast), Option.some.injEq] at hv
    rw [← hv, bitValue_le_maxValue_iff] at hle
    exact lt_irrefl 32 hle
  · intro hfew m hm
    obtain ⟨i, hi⟩ := List.mem_iff_getElem?.mp hm
    have hlt : i < e.members.length := (List.getElem?_eq_some_iff.mp hi).1
    exact ⟨_, hvalue i m hi, bitValue_le_maxValue_iff.mpr (by omega)⟩

/-- The names `AA`, `AB`, …, `AZ`, `BA`, … -/
def letterPair (i : ℕ) : Text := [Char.ofNat (0x41 + i / 26), Char.ofNat (0x41 + i % 26)]

/-- An enumeration of bits with 33 members that have no values of their own. -/
def crowdedWorkspace : Workspace where
  entries := (List.range 33).map (fun i => .enumMember { name := some (letterPair i) }) ++
    [.enumType { name := some "Crowd".toList, isFlags := true, members := (List.range 33).map (⟨·⟩) }]

/-- The enumeration that is built in `crowdedWorkspace`. -/
def crowd : EnumDecl where
  name := "Crowd".toList
  isFlags := true
  members := assignFlags ((List.range 33).map (fun i => { name := letterPair i }))

theorem build_crowdedWorkspace : crowdedWorkspace.build ⟨33⟩ {} = .ok (.ofEnum crowd) := rfl

theorem exists_enum?_crowdedWorkspace : ∃ d, crowdedWorkspace.enum? ⟨33⟩ = some d ∧ d.isFlags = true ∧
    (∀ m ∈ d.members, m.value = none) ∧ d.members.length = 33 :=
  ⟨_, rfl, by decide⟩

theorem values_le_maxValue_iff_crowd : ∃ d, crowdedWorkspace.build ⟨33⟩ {} = .ok (.ofEnum crowd) ∧
    crowdedWorkspace.enum? ⟨33⟩ = some d ∧ d.isFlags = true ∧ (∀ m ∈ d.members, m.value = none) ∧
    ¬ ∀ m ∈ crowd.members, ∃ v, m.value = some v ∧ v ≤ maxValue := by
  obtain ⟨d, hd, hflags, hnone, hlength⟩ := exists_enum?_crowdedWorkspace
  refine ⟨d, build_crowdedWorkspace, hd, hflags, hnone, fun hfit => ?_⟩
  have hfew := (values_le_maxValue_iff build_crowdedWorkspace hd hflags hnone).2.mp hfit
  rw [hlength] at hfew
  exact absurd hfew (by decide)

/-- The last of the members of `crowd` has a value that takes one bit more. -/
theorem not_values_le_maxValue : ∃ d, crowdedWorkspace.build ⟨33⟩ {} = .ok (.ofEnum crowd) ∧
    crowdedWorkspace.enum? ⟨33⟩ = some d ∧ d.isFlags = true ∧ (∀ m ∈ d.members, m.value = none) ∧
    ∃ m ∈ crowd.members, m.value = some (maxValue + 1) := by
  obtain ⟨d, hd, hflags, hnone, -⟩ := exists_enum?_crowdedWorkspace
  have hlast : crowd.members[32]?.map (·.value) = some (some (maxValue + 1)) := rfl
  obtain ⟨m, hm, hvalue⟩ := Option.map_eq_some_iff.mp hlast
  exact ⟨d, build_crowdedWorkspace, hd, hflags, hnone, m, List.mem_of_getElem? hm, hvalue⟩

end CSharpDraft
