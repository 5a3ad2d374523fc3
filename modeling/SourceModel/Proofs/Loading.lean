import Mathlib.Algebra.GroupWithZero.Nat
import Mathlib.Data.List.Flatten
import Mathlib.Data.List.Nodup
import Mathlib.Tactic.Tauto
import SourceModel.Project
import SourceModel.Proofs.Chain
import SourceModel.Proofs.Preorder

/-!
# Loading a project

A project loads exactly if every source reports a unit and no two declarations have one qualified
name. Otherwise the first source that fails is reported, or else the first declaration, in the
order of the units and depth first, whose name has occurred before. The index of a loaded project
holds every declaration under its name and nothing else.
-/

namespace SourceModel

/-! ## Repetitions -/

section Repetitions

variable {α : Type} [BEq α] [LawfulBEq α] {a : α}

theorem firstRepeated?_eq_none_iff {seen l : List α} :
    firstRepeated? seen l = none ↔ l.Nodup ∧ ∀ b ∈ l, b ∉ seen := by
  induction l generalizing seen with
  | nil => simp [firstRepeated?]
  | cons b l ih =>
    unfold firstRepeated?
    by_cases hb : b ∈ seen
    · simp [hb]
    · rw [if_neg (by simpa using hb), ih, List.nodup_cons]
      simp only [List.mem_cons, not_or]
      constructor
      · rintro ⟨hn, hl⟩
        exact ⟨⟨fun hm => (hl b hm).1 rfl, hn⟩, by
          rintro c (rfl | hc)
          · exact hb
          · exact (hl c hc).2⟩
      · rintro ⟨⟨hbl, hn⟩, hl⟩
        refine ⟨hn, fun c hc => ⟨?_, hl c (.inr hc)⟩⟩
        rintro rfl
        exact hbl hc

theorem firstRepeated?_eq_some_iff {seen l : List α} :
    firstRepeated? seen l = some a ↔ ∃ before after, l = before ++ a :: after ∧
      (a ∈ seen ∨ a ∈ before) ∧ before.Nodup ∧ ∀ b ∈ before, b ∉ seen := by
  induction l generalizing seen with
  | nil => simp [firstRepeated?]
  | cons b l ih =>
    unfold firstRepeated?
    by_cases hb : b ∈ seen
    · rw [if_pos (by simpa using hb)]
      constructor
      · rintro ⟨⟩
        exact ⟨[], l, rfl, .inl hb, .nil, by simp⟩
      · rintro ⟨before, after, heq, -, -, hs⟩
        cases before with
        | nil =>
          cases heq
          rfl
        | cons c before =>
          cases heq
          exact absurd hb (hs _ List.mem_cons_self)
    · rw [if_neg (by simpa using hb), ih]
      constructor
      · rintro ⟨before, after, rfl, ha, hn, hs⟩
        simp only [List.mem_cons, not_or] at ha hs
        refine ⟨b :: before, after, rfl, ?_, ?_, ?_⟩
        · rw [List.mem_cons]
          tauto
        · rw [List.nodup_cons]
          exact ⟨fun hm => (hs b hm).1 rfl, hn⟩
        · intro c hc
          rcases List.mem_cons.mp hc with rfl | hc
          · exact hb
          · exact (hs c hc).2
      · rintro ⟨before, after, heq, ha, hn, hs⟩
        cases before with
        | nil =>
          cases heq
          simp [hb] at ha
        | cons c before =>
          cases heq
          rw [List.nodup_cons] at hn
          refine ⟨before, after, rfl, ?_, hn.2, fun c hc => ?_⟩
          · simp only [List.mem_cons] at ha ⊢
            tauto
          · simp only [List.mem_cons, not_or]
            refine ⟨?_, hs c (List.mem_cons_of_mem _ hc)⟩
            rintro rfl
            exact hn.1 hc

theorem lookup_eq_some_iff_mem {β : Type} {l : List (α × β)} (h : (l.map (·.1)).Nodup) {b : β} :
    l.lookup a = some b ↔ (a, b) ∈ l := by
  rw [List.lookup_eq_some_iff]
  constructor
  · rintro ⟨l₁, l₂, rfl, -⟩
    simp
  · intro hm
    obtain ⟨l₁, l₂, rfl⟩ := List.append_of_mem hm
    refine ⟨l₁, l₂, rfl, fun p hp => ?_⟩
    rw [List.map_append, List.map_cons, List.nodup_append] at h
    have hne := h.2.2 p.1 (List.mem_map_of_mem hp) a List.mem_cons_self
    simpa using Ne.symm hne

end Repetitions

namespace Project

/-! ## Sources -/

section Sources

variable {strict : Bool} {sources : List (List Event)} {units : List SourceUnit}

/-- The units that the sources report, source by source. -/
def Built (strict : Bool) (sources : List (List Event)) (units : List SourceUnit) : Prop :=
  List.Forall₂ (fun events u => SourceUnit.ofEvents strict events = .ok u) sources units

/-- Source number `i` is the first that reports no unit, and `e` is what is wrong with it. -/
structure FirstFailure (strict : Bool) (sources : List (List Event)) (i : Nat) (e : BuildError) :
    Prop where
  fails : ∃ events, sources[i]? = some events ∧ SourceUnit.ofEvents strict events = .error e
  before : ∀ j < i, ∃ events u, sources[j]? = some events ∧
    SourceUnit.ofEvents strict events = .ok u

theorem firstFailure_cons_zero {events : List Event} {e : BuildError}
    (h : SourceUnit.ofEvents strict events = .error e) :
    FirstFailure strict (events :: sources) 0 e :=
  ⟨⟨events, rfl, h⟩, fun j hj => absurd hj (Nat.not_lt_zero j)⟩

theorem firstFailure_cons_succ_iff {events : List Event} {u : SourceUnit} {i : Nat}
    {e : BuildError} (h : SourceUnit.ofEvents strict events = .ok u) :
    FirstFailure strict (events :: sources) (i + 1) e ↔ FirstFailure strict sources i e := by
  constructor
  · rintro ⟨hf, hb⟩
    exact ⟨hf, fun j hj => hb (j + 1) (Nat.succ_lt_succ hj)⟩
  · rintro ⟨hf, hb⟩
    refine ⟨hf, fun j hj => ?_⟩
    cases j with
    | zero => exact ⟨events, u, rfl, h⟩
    | succ j => exact hb j (Nat.lt_of_succ_lt_succ hj)

theorem buildFrom_eq_ok_iff {i : Nat} :
    buildFrom strict i sources = .ok units ↔ Built strict sources units := by
  induction sources generalizing i units with
  | nil =>
    unfold buildFrom Built
    rw [List.forall₂_nil_left_iff]
    exact ⟨fun h => by cases h; rfl, fun h => by rw [h]⟩
  | cons events sources ih =>
    unfold buildFrom Built
    rw [List.forall₂_cons_left_iff]
    cases hu : SourceUnit.ofEvents strict events with
    | error e => simp
    | ok u =>
      show (u :: ·) <$> buildFrom strict (i + 1) sources = .ok units ↔ _
      rw [map_eq_ok_iff]
      constructor
      · rintro ⟨rest, hr, rfl⟩
        exact ⟨u, rest, rfl, ih.mp hr, rfl⟩
      · rintro ⟨v, rest, hv, hr, rfl⟩
        cases hv
        exact ⟨rest, ih.mpr hr, rfl⟩

theorem buildFrom_eq_error_iff {i : Nat} {le : LoadError} :
    buildFrom strict i sources = .error le ↔
      ∃ k e, le = .build (i + k) e ∧ FirstFailure strict sources k e := by
  induction sources generalizing i with
  | nil =>
    unfold buildFrom
    constructor
    · intro h
      cases h
    · rintro ⟨k, e, -, ⟨events, hk, -⟩, -⟩
      cases hk
  | cons events sources ih =>
    unfold buildFrom
    cases hu : SourceUnit.ofEvents strict events with
    | error e =>
      constructor
      · rintro ⟨⟩
        exact ⟨0, e, rfl, firstFailure_cons_zero hu⟩
      · rintro ⟨k, e', rfl, ⟨events', hk, hf⟩, hb⟩
        cases k with
        | zero =>
          cases hk
          rw [hu] at hf
          cases hf
          rfl
        | succ k =>
          obtain ⟨events', u, h0, hok⟩ := hb 0 (Nat.zero_lt_succ k)
          cases h0
          rw [hu] at hok
          cases hok
    | ok u =>
      have hmap : (buildFrom strict (i + 1) sources).map (u :: ·) = .error le ↔
          buildFrom strict (i + 1) sources = .error le := by
        cases buildFrom strict (i + 1) sources <;> simp [Except.map]
      show (buildFrom strict (i + 1) sources).map (u :: ·) = .error le ↔ _
      rw [hmap, ih]
      constructor
      · rintro ⟨k, e, rfl, hk⟩
        exact ⟨k + 1, e, by rw [Nat.add_assoc, Nat.add_comm 1],
          (firstFailure_cons_succ_iff hu).mpr hk⟩
      · rintro ⟨k, e, rfl, hk⟩
        cases k with
        | zero =>
          obtain ⟨events', h0, hf⟩ := hk.fails
          cases h0
          rw [hu] at hf
          cases hf
        | succ k =>
          exact ⟨k, e, by rw [Nat.add_assoc, Nat.add_comm 1],
            (firstFailure_cons_succ_iff hu).mp hk⟩

theorem Built.mem (h : Built strict sources units) {u : SourceUnit} (hu : u ∈ units) :
    ∃ events ∈ sources, SourceUnit.ofEvents strict events = .ok u := by
  induction h with
  | nil => cases hu
  | cons hv _ ih =>
    cases hu with
    | head => exact ⟨_, .head _, hv⟩
    | tail _ hu =>
      obtain ⟨events, he, hok⟩ := ih hu
      exact ⟨events, .tail _ he, hok⟩

/-- The unit at a position is the one that the source at that position reports. -/
theorem Built.getElem?_eq (h : Built strict sources units) (i : Nat) :
    units[i]? = sources[i]?.bind fun events => (SourceUnit.ofEvents strict events).toOption := by
  induction h generalizing i with
  | nil => rfl
  | cons hu _ ih =>
    cases i with
    | zero =>
      show some _ = (SourceUnit.ofEvents strict _).toOption
      rw [hu]
      rfl
    | succ i => exact ih i

theorem Built.exists_source (h : Built strict sources units) {i : Nat} {u : SourceUnit}
    (hu : units[i]? = some u) :
    ∃ events, sources[i]? = some events ∧ SourceUnit.ofEvents strict events = .ok u := by
  rw [h.getElem?_eq, Option.bind_eq_some_iff] at hu
  obtain ⟨events, hevents, hread⟩ := hu
  refine ⟨events, hevents, ?_⟩
  cases hok : SourceUnit.ofEvents strict events with
  | error e =>
    rw [hok] at hread
    cases hread
  | ok v =>
    rw [hok] at hread
    cases hread
    rfl

theorem exists_built_iff :
    (∃ units, Built strict sources units) ↔
      ∀ events ∈ sources, ∃ u, SourceUnit.ofEvents strict events = .ok u := by
  induction sources with
  | nil => exact ⟨fun _ events hmem => (by cases hmem), fun _ => ⟨[], .nil⟩⟩
  | cons events sources ih =>
    rw [List.forall_mem_cons, ← ih]
    constructor
    · rintro ⟨units, hb⟩
      cases hb with
      | cons hu hb => exact ⟨⟨_, hu⟩, _, hb⟩
    · rintro ⟨⟨u, hu⟩, units, hb⟩
      exact ⟨u :: units, .cons hu hb⟩

/-- The tables of built units are well formed, and their order is the depth-first one. -/
theorem Built.wellFormed (h : Built strict sources units) :
    ∀ u ∈ units, u.WellFormed ∧ u.InOrder := by
  intro u hu
  obtain ⟨events, -, hok⟩ := h.mem hu
  exact SourceUnit.wellFormed_of_ofEvents hok

end Sources

/-! ## Entries -/

section Entries

variable {units : List SourceUnit} {id : DeclId} {q : String}

/-- `id` is a declaration of the units, and `q` its full name. -/
def Named (units : List SourceUnit) (id : DeclId) (q : String) : Prop :=
  ∃ u, units[id.unit]? = some u ∧ u.IsFullName id.decl q

/-- No two declarations of the units, nested ones included, have one qualified name. -/
def DistinctNames (units : List SourceUnit) : Prop :=
  ∀ id id' q, Named units id q → Named units id' q → id = id'

/-- The qualified names of the declarations, unit by unit and depth first. -/
def names (units : List SourceUnit) : List String :=
  units.flatMap fun u => u.visit.map fun (id, _) => u.qualifiedName id

/-- The first name that has occurred before is `q`. -/
def FirstRepeated (names : List String) (q : String) : Prop :=
  ∃ before after, names = before ++ q :: after ∧ q ∈ before ∧ before.Nodup

theorem map_fst_entries : (entries units).map (·.1) = names units := by
  have hfst : units.zipIdx.map (·.1) = units := List.zipIdx_map_fst 0 units
  unfold names entries
  conv => rhs; rw [← hfst]
  rw [List.map_flatMap, List.flatMap_map]
  congr 1
  funext x
  unfold entriesOf
  rw [List.map_map]
  rfl

theorem map_snd_entries (hu : ∀ u ∈ units, u.WellFormed ∧ u.InOrder) :
    (entries units).map (·.2) =
      units.zipIdx.flatMap fun (u, i) => (List.range u.typeCount).map (DeclId.mk i) := by
  unfold entries
  rw [List.map_flatMap]
  refine List.flatMap_congr fun x hx => ?_
  obtain ⟨hw, ho⟩ := hu x.1 (List.fst_mem_of_mem_zipIdx hx)
  have hr := SourceUnit.map_visit_eq_range hw ho
  show (entriesOf x.1 x.2).map (·.2) = (List.range x.1.decls.length).map (DeclId.mk x.2)
  rw [← hr]
  unfold entriesOf
  rw [List.map_map, List.map_map]
  rfl

theorem mem_entries_iff (hu : ∀ u ∈ units, u.WellFormed ∧ u.InOrder) :
    (q, id) ∈ entries units ↔ Named units id q := by
  have hrange : ∀ u ∈ units, ∀ i, i < u.typeCount ↔ ∃ d, (i, d) ∈ u.visit := by
    intro u hm i
    have hr := SourceUnit.map_visit_eq_range (hu u hm).1 (hu u hm).2
    rw [← List.mem_range]
    show i ∈ List.range u.decls.length ↔ _
    rw [← hr]
    simp
  simp only [entries, entriesOf, List.mem_flatMap, List.mem_map, Prod.exists, Named]
  constructor
  · rintro ⟨u, i, hui, j, d, hj, heq⟩
    cases heq
    rw [List.mk_mem_zipIdx_iff_getElem?] at hui
    have hm := List.mem_of_getElem? hui
    exact ⟨u, hui, (SourceUnit.isFullName_iff (hu u hm).1).mpr
      ⟨(hrange u hm j).mpr ⟨d, hj⟩, rfl⟩⟩
  · rintro ⟨u, hui, hname⟩
    have hm := List.mem_of_getElem? hui
    obtain ⟨hlt, rfl⟩ := (SourceUnit.isFullName_iff (hu u hm).1).mp hname
    obtain ⟨d, hd⟩ := (hrange u hm id.decl).mp hlt
    exact ⟨u, id.unit, List.mk_mem_zipIdx_iff_getElem?.mpr hui, id.decl, d, hd, rfl⟩

/-- Every declaration is entered once. -/
theorem nodup_map_snd_entries (hu : ∀ u ∈ units, u.WellFormed ∧ u.InOrder) :
    ((entries units).map (·.2)).Nodup := by
  rw [map_snd_entries hu, List.nodup_flatMap]
  constructor
  · intro x _
    exact List.nodup_range.map fun a b h => (DeclId.mk.inj h).2
  · have hlt : (units.zipIdx.map (·.2)).Pairwise (· ≠ ·) := by
      rw [List.zipIdx_map_snd]
      exact List.nodup_range'
    rw [List.pairwise_map] at hlt
    refine hlt.imp fun {x y} hne a hx hy => hne ?_
    obtain ⟨i, -, rfl⟩ := List.mem_map.mp hx
    obtain ⟨j, -, hj⟩ := List.mem_map.mp hy
    exact (DeclId.mk.inj hj).1.symm

theorem nodup_names_iff (hu : ∀ u ∈ units, u.WellFormed ∧ u.InOrder) :
    (names units).Nodup ↔ DistinctNames units := by
  rw [← map_fst_entries]
  constructor
  · intro h id id' q hid hid'
    have heq := List.inj_on_of_nodup_map h ((mem_entries_iff hu).mpr hid)
      ((mem_entries_iff hu).mpr hid') rfl
    exact (Prod.mk.inj heq).2
  · intro h
    refine (nodup_map_snd_entries hu).of_map _ |>.map_on ?_
    rintro ⟨q, id⟩ hid ⟨q', id'⟩ hid' (rfl : q = q')
    rw [h id id' q ((mem_entries_iff hu).mp hid) ((mem_entries_iff hu).mp hid')]

end Entries

/-! ## Loading -/

section Load

variable {strict : Bool} {sources : List (List Event)} {units : List SourceUnit} {p : Project}

theorem firstRepeated?_names_eq_none_iff {names : List String} :
    firstRepeated? [] names = none ↔ names.Nodup := by
  rw [firstRepeated?_eq_none_iff]
  simp

theorem firstRepeated?_names_eq_some_iff {names : List String} {q : String} :
    firstRepeated? [] names = some q ↔ FirstRepeated names q := by
  rw [firstRepeated?_eq_some_iff]
  simp [FirstRepeated]

theorem ofUnits_eq_ok_iff (hu : ∀ u ∈ units, u.WellFormed ∧ u.InOrder) :
    ofUnits units = .ok p ↔ DistinctNames units ∧ p = ⟨units, entries units⟩ := by
  rw [← nodup_names_iff hu, ← firstRepeated?_names_eq_none_iff]
  simp only [ofUnits, map_fst_entries]
  cases firstRepeated? [] (names units) with
  | none => simp [eq_comm]
  | some q => simp

theorem ofUnits_eq_error_iff {e : LoadError} :
    ofUnits units = .error e ↔ ∃ q, e = .duplicateType q ∧ FirstRepeated (names units) q := by
  simp only [← firstRepeated?_names_eq_some_iff]
  simp only [ofUnits, map_fst_entries]
  cases firstRepeated? [] (names units) with
  | none => simp
  | some q => simp [eq_comm]

theorem load_eq_ok_iff :
    load strict sources = .ok p ↔
      ∃ units, Built strict sources units ∧ DistinctNames units ∧ p = ⟨units, entries units⟩ := by
  unfold load
  rw [bind_eq_ok_iff]
  constructor
  · rintro ⟨units, hb, hp⟩
    have hb := buildFrom_eq_ok_iff.mp hb
    exact ⟨units, hb, (ofUnits_eq_ok_iff hb.wellFormed).mp hp⟩
  · rintro ⟨units, hb, hp⟩
    exact ⟨units, buildFrom_eq_ok_iff.mpr hb, (ofUnits_eq_ok_iff hb.wellFormed).mpr hp⟩

/-- Sources are loaded by building each and comparing the names. -/
theorem load_of_built (hb : Built strict sources units) (hn : (names units).Nodup) :
    load strict sources = .ok ⟨units, entries units⟩ :=
  load_eq_ok_iff.mpr ⟨units, hb, (nodup_names_iff hb.wellFormed).mp hn, rfl⟩

theorem load_eq_error_iff {e : LoadError} :
    load strict sources = .error e ↔
      (∃ i b, e = .build i b ∧ FirstFailure strict sources i b) ∨
      ∃ units q, Built strict sources units ∧ e = .duplicateType q ∧
        FirstRepeated (names units) q := by
  have hfail : buildFrom strict 0 sources = .error e ↔
      ∃ i b, e = .build i b ∧ FirstFailure strict sources i b := by
    simp only [buildFrom_eq_error_iff, Nat.zero_add]
  have hok : ∀ units, buildFrom strict 0 sources = .ok units ↔ Built strict sources units :=
    fun units => buildFrom_eq_ok_iff
  rw [← hfail]
  simp only [← hok]
  unfold load
  cases buildFrom strict 0 sources with
  | error e' => simp [bind, Except.bind]
  | ok units =>
    show ofUnits units = .error e ↔ _
    rw [ofUnits_eq_error_iff]
    simp

/-- What is known of every loaded project. -/
structure Loaded (p : Project) : Prop where
  units : ∀ u ∈ p.units, u.WellFormed ∧ u.InOrder
  index : p.index = entries p.units
  distinct : DistinctNames p.units

theorem loaded_of_load (h : load strict sources = .ok p) : p.Loaded := by
  obtain ⟨units, hb, hd, rfl⟩ := load_eq_ok_iff.mp h
  exact ⟨hb.wellFormed, rfl, hd⟩

namespace Loaded

theorem named_iff (h : p.Loaded) {id : DeclId} {q : String} :
    Named p.units id q ↔ (p.decl? id).isSome ∧ p.qualifiedName id = q := by
  unfold Named decl? qualifiedName unit?
  cases hu : p.units[id.unit]? with
  | none => simp
  | some u =>
    have hw := (h.units u (List.mem_of_getElem? hu)).1
    simp [SourceUnit.isFullName_iff hw, SourceUnit.decl?, SourceUnit.typeCount]

theorem findType?_eq_some_iff (h : p.Loaded) {q : String} {id : DeclId} :
    p.findType? q = some id ↔ Named p.units id q := by
  have hn : (p.index.map (·.1)).Nodup := by
    rw [h.index, map_fst_entries]
    exact (nodup_names_iff h.units).mpr h.distinct
  unfold findType?
  rw [lookup_eq_some_iff_mem hn, h.index, mem_entries_iff h.units]

theorem typeCount_eq (h : p.Loaded) : p.typeCount = (p.units.map (·.typeCount)).sum := by
  have hlen := congrArg List.length (map_snd_entries h.units)
  rw [List.length_map, List.length_flatMap] at hlen
  unfold typeCount
  rw [h.index, hlen]
  conv => rhs; rw [← List.zipIdx_map_fst 0 p.units]
  rw [List.map_map]
  congr 2
  funext x
  simp

end Loaded

/-- A project loads exactly if all sources report units and all full names differ. The first source
that fails is reported before any repeated name. In a loaded project the units are those of the
sources, in their order, and a name finds the declaration that has it. The qualified name of a
declaration is its full name: package, names of the declarations around, own name. -/
theorem load_outcomes (strict : Bool) (sources : List (List Event)) :
    ((∃ p, load strict sources = .ok p) ↔
      ∃ units, Built strict sources units ∧ DistinctNames units) ∧
    (∀ i e, load strict sources = .error (.build i e) ↔ FirstFailure strict sources i e) ∧
    (∀ q, load strict sources = .error (.duplicateType q) ↔
      ∃ units, Built strict sources units ∧ FirstRepeated (names units) q) ∧
    (∀ units, Built strict sources units → ∀ u ∈ units, ∀ id q,
      u.IsFullName id q ↔ id < u.typeCount ∧ u.qualifiedName id = q) ∧
    ∀ p, load strict sources = .ok p →
      Built strict sources p.units ∧
      p.typeCount = (p.units.map (·.typeCount)).sum ∧
      ∀ q id, p.findType? q = some id ↔ (p.decl? id).isSome ∧ p.qualifiedName id = q := by
  refine ⟨?_, fun i e => ?_, fun q => ?_, fun units hb u hu id q => ?_, fun p hp => ?_⟩
  · simp only [load_eq_ok_iff]
    constructor
    · rintro ⟨p, units, hb, hd, -⟩
      exact ⟨units, hb, hd⟩
    · rintro ⟨units, hb, hd⟩
      exact ⟨_, units, hb, hd, rfl⟩
  · rw [load_eq_error_iff]
    simp
  · rw [load_eq_error_iff]
    simp
  · exact SourceUnit.isFullName_iff (hb.wellFormed u hu).1
  · have hl := loaded_of_load hp
    obtain ⟨units, hb, -, rfl⟩ := load_eq_ok_iff.mp hp
    refine ⟨hb, hl.typeCount_eq, fun q id => ?_⟩
    rw [hl.findType?_eq_some_iff, hl.named_iff]

/-- The type `C` nested in `a.B` and the type `C` of the package `a.B` have one full name. -/
theorem load_of_nested_and_package :
    ∃ u v, Built true [[.package "a", .enterType .classType "B", .enterType .classType "C",
        .exitType, .exitType], [.package "a.B", .enterType .classType "C", .exitType]] [u, v] ∧
      u.IsFullName 1 "a.B.C" ∧ v.IsFullName 0 "a.B.C" ∧
      load true [[.package "a", .enterType .classType "B", .enterType .classType "C",
        .exitType, .exitType], [.package "a.B", .enterType .classType "C", .exitType]] =
        .error (.duplicateType "a.B.C") := by
  obtain ⟨u, v, hu, hv, hnames, hnested, hother⟩ : ∃ u v,
      SourceUnit.ofEvents true [.package "a", .enterType .classType "B",
        .enterType .classType "C", .exitType, .exitType] = .ok u ∧
      SourceUnit.ofEvents true [.package "a.B", .enterType .classType "C", .exitType] = .ok v ∧
      names [u, v] = ["a.B", "a.B.C", "a.B.C"] ∧
      (1 < u.typeCount ∧ u.qualifiedName 1 = "a.B.C") ∧
      0 < v.typeCount ∧ v.qualifiedName 0 = "a.B.C" :=
    ⟨_, _, by rfl, by rfl, by decide +kernel, by decide +kernel, by decide +kernel⟩
  have hb : Built true _ [u, v] := .cons hu (.cons hv .nil)
  obtain ⟨-, -, hrepeated, hfull, -⟩ := load_outcomes true _
  refine ⟨u, v, hb, (hfull _ hb u (by simp) 1 _).mpr hnested,
    (hfull _ hb v (by simp) 0 _).mpr hother, (hrepeated _).mpr ⟨_, hb, ?_⟩⟩
  rw [hnames]
  exact ⟨["a.B", "a.B.C"], [], rfl, by decide, by decide⟩

end Load

end Project

end SourceModel
