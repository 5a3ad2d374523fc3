import SourceModel.Proofs.Forest
import SourceModel.Proofs.Loading
import SourceModel.Proofs.ReferenceOrder
import SourceModel.Proofs.Remembering
import SourceModel.Proofs.SimpleNames

/-!
# What a check reports

A check reports the imports that are shadowed (`SourceUnit.shadowedImports`) and then, declaration
by declaration and reference by reference, what goes wrong when the reference is looked up with
nothing remembered (`Project.failure?`). What was remembered before does not show in the report.
Afterwards the targets of all references that have one are remembered.
-/

namespace SourceModel

/-- Where the target of a reference is remembered. -/
def Reference.address (id : DeclId) : Reference → Address
  | .annotationUse element i _ => .annotationUse ⟨id, element, i⟩
  | .type slot o => .type ⟨id, slot, o.path⟩

/-- The warning for an import of a single type, if one before it is of a single type with the same
last segment. It names the first such import. -/
def Import.warning? (i : Import) (unit : Nat) (location : String) (earlier : List Import) :
    Option Diagnostic :=
  if i.kind = .single then
    (earlier.find? (Lookup.Imports (Name.lastSegment i.name) ·)).map fun winner =>
      ⟨⟨unit, .unit⟩, location, .warning, some "W0001",
        "import " ++ i.name ++ " is shadowed by import " ++ winner.name⟩
  else none

namespace SourceUnit

/-- The warning for the import of the given number. -/
def importWarning? (u : SourceUnit) (unit n : Nat) : Option Diagnostic :=
  u.imports[n]?.bind fun i => i.warning? unit (u.containerName .unit) (u.imports.take n)

/-- The warnings for the imports of a unit, in their order. -/
def shadowedImports (u : SourceUnit) (unit : Nat) : List Diagnostic :=
  (List.range u.imports.length).filterMap (u.importWarning? unit)

end SourceUnit

namespace Project

/-- What a reference in a unit stands for, with nothing remembered. -/
def resolveReference (p : Project) (unit : Nat) : Reference → Except LookupError Target
  | .annotationUse _ _ use => p.resolveAnnotation unit use
  | .type _ o => p.resolveType unit o.ty

/-- The error for a reference of a declaration, if it cannot be resolved. -/
def failure? (p : Project) (u : SourceUnit) (id : DeclId) (r : Reference) : Option Diagnostic :=
  match p.resolveReference id.unit r with
  | .ok _ => none
  | .error e => some ⟨e.scope, u.qualifiedName id.decl, .error, some e.code, e.message⟩

end Project

/-! ## Imports -/

theorem Import.warning?_of_single {i : Import} (h : i.kind = .single) (unit : Nat)
    (location : String) (earlier : List Import) :
    i.warning? unit location earlier =
      ((earlier.filter (!·.isWildcard)).find? fun e => Name.simple e.name == Name.simple i.name).map
        fun winner => .shadowed unit location i winner := by
  rw [Import.warning?, if_pos h, Lookup.find?_singles, Name.simple_eq_lastSegment]
  rfl

/-- The warnings for the rest of the imports, when `earlier` has been gone through. -/
theorem shadowWarnings_singles (unit : Nat) (location : String) (earlier rest : List Import) :
    shadowWarnings unit location (earlier.filter (!·.isWildcard))
        (rest.filter (!·.isWildcard)) =
      (List.range' earlier.length rest.length).filterMap fun n =>
        (earlier ++ rest)[n]?.bind fun i => i.warning? unit location ((earlier ++ rest).take n) := by
  induction rest generalizing earlier with
  | nil => rfl
  | cons i rest ih =>
    have hnext := ih (earlier ++ [i])
    rw [List.filter_append, List.append_assoc, List.length_append, List.length_singleton,
      List.singleton_append] at hnext
    have hhere : (earlier ++ i :: rest)[earlier.length]? = some i := by simp
    have htake : (earlier ++ i :: rest).take earlier.length = earlier := List.take_left
    rw [List.length_cons, List.range'_succ, List.filterMap_cons, hhere, Option.bind_some, htake,
      ← hnext]
    cases hkind : i.kind with
    | wildcard =>
      have hw : i.isWildcard = true := by simp [Import.isWildcard, hkind]
      simp [Import.warning?, hkind, hw]
    | single =>
      have hw : i.isWildcard = false := by simp [Import.isWildcard, hkind]
      simp only [List.filter_cons, hw, Bool.not_false, if_true, List.filter_nil]
      rw [shadowWarnings, Import.warning?_of_single hkind]
      cases (earlier.filter (!·.isWildcard)).find? fun e => Name.simple e.name == Name.simple i.name
        <;> rfl

theorem SourceUnit.shadowWarnings_eq_shadowedImports (u : SourceUnit) (unit : Nat) :
    shadowWarnings unit (u.containerName .unit) [] u.singleImports = u.shadowedImports unit := by
  rw [shadowedImports, List.range_eq_range']
  exact shadowWarnings_singles unit (u.containerName .unit) [] u.imports

theorem SourceUnit.exists_of_mem_shadowedImports {u : SourceUnit} {unit : Nat} {x : Diagnostic}
    (h : x ∈ u.shadowedImports unit) :
    ∃ i winner, x = .shadowed unit (u.containerName .unit) i winner := by
  obtain ⟨n, -, hn⟩ := List.mem_filterMap.mp h
  obtain ⟨i, -, hi⟩ := Option.bind_eq_some_iff.mp hn
  obtain ⟨-, hi⟩ := Option.ite_none_right_eq_some.mp hi
  obtain ⟨winner, -, rfl⟩ := Option.map_eq_some_iff.mp hi
  exact ⟨i, winner, rfl⟩

/-! ## References -/

section References

variable {p : Project} {id : DeclId} {d : Declaration} {r : Reference} {m n : Memo}

theorem targetOf_eq_consult (p : Project) (id : DeclId) (r : Reference) :
    p.targetOf id r = consult (r.address id) (p.resolveReference id.unit r) := by
  cases r <;> rfl

theorem answer_targetOf (hd : p.decl? id = some d) (hr : r.StandsIn d) (hm : m.Faithful p) :
    (p.targetOf id r m).1 = p.resolveReference id.unit r := by
  rw [(steady_targetOf hd hr).answer m hm, targetOf_eq_consult]
  unfold consult
  rw [Memo.get?_empty]
  cases p.resolveReference id.unit r <;> rfl

/-- The cell of the reference holds its target if it has one, and else nothing. -/
def Memo.Settles (p : Project) (id : DeclId) (r : Reference) (m : Memo) : Prop :=
  m.get? (r.address id) = (p.resolveReference id.unit r).toOption

theorem settles_targetOf (hd : p.decl? id = some d) (hr : r.StandsIn d) (hm : m.Faithful p) :
    (p.targetOf id r m).2.Settles p id r := by
  unfold Memo.Settles
  rw [← answer_targetOf hd hr hm, targetOf_eq_consult]
  exact Query.get?_consult _ _ m

theorem Memo.Settles.mono (hd : p.decl? id = some d) (hr : r.StandsIn d) (h : m.Settles p id r)
    (hs : m.Sub n) (hn : n.Faithful p) : n.Settles p id r := by
  have hfaithful := answer_targetOf hd hr hn
  unfold Settles at h ⊢
  cases hc : n.get? (r.address id) with
  | some t =>
    rw [targetOf_eq_consult] at hfaithful
    unfold consult at hfaithful
    rw [hc] at hfaithful
    rw [← hfaithful]
    rfl
  | none =>
    cases hc' : m.get? (r.address id) with
    | none => rw [← h, hc']
    | some t =>
      rw [hs _ t hc'] at hc
      cases hc

/-- One step of the check: the first reference, and then the rest with what is remembered now. -/
theorem checkReferences_cons {u : SourceUnit} {rs : List Reference}
    (h : (p.targetOf id r m).1 = p.resolveReference id.unit r) :
    p.checkReferences id (u.qualifiedName id.decl) (r :: rs) m =
      ((p.failure? u id r).toList ++
        (p.checkReferences id (u.qualifiedName id.decl) rs (p.targetOf id r m).2).1,
       (p.checkReferences id (u.qualifiedName id.decl) rs (p.targetOf id r m).2).2) := by
  unfold Project.failure?
  rw [← h]
  show (match (p.targetOf id r m).1 with
    | .ok _ => p.checkReferences id (u.qualifiedName id.decl) rs
    | .error e => (.ofLookupError (u.qualifiedName id.decl) e :: ·) <$>
        p.checkReferences id (u.qualifiedName id.decl) rs) (p.targetOf id r m).2 = _
  cases (p.targetOf id r m).1 <;> rfl

/-- The check of references finds those that fail, and remembers the targets of the others. -/
theorem checkReferences_spec {u : SourceUnit} (hd : p.decl? id = some d) {rs : List Reference}
    (hrs : ∀ r ∈ rs, r.StandsIn d) (hm : m.Faithful p) :
    (p.checkReferences id (u.qualifiedName id.decl) rs m).1 = rs.filterMap (p.failure? u id) ∧
      ∀ r ∈ rs, (p.checkReferences id (u.qualifiedName id.decl) rs m).2.Settles p id r := by
  induction rs generalizing m with
  | nil => exact ⟨rfl, fun r hr => absurd hr List.not_mem_nil⟩
  | cons r rs ih =>
    have hr := hrs r List.mem_cons_self
    have hrest : ∀ r ∈ rs, r.StandsIn d := fun r hr => hrs r (.tail _ hr)
    have hnext := (steady_targetOf hd hr).faithful m hm
    have hsteady := steady_checkReferences hd (u.qualifiedName id.decl) hrest
    obtain ⟨hreport, hcells⟩ := ih hrest hnext
    rw [checkReferences_cons (answer_targetOf hd hr hm)]
    constructor
    · rw [hreport, List.filterMap_cons]
      cases p.failure? u id r <;> rfl
    · intro s hs
      rcases List.mem_cons.mp hs with rfl | hs
      · have hfirst := settles_targetOf hd hr hm
        exact hfirst.mono hd hr (hsteady.sub _) (hsteady.faithful _ hnext)
      · exact hcells s hs

end References

/-! ## Declarations and units -/

section Units

variable {p : Project} {u : SourceUnit} {unit : Nat} {m : Memo}

theorem checkDecls_spec (hu : p.unit? unit = some u) {decls : List (Nat × Declaration)}
    (h : ∀ x ∈ decls, u.decl? x.1 = some x.2) (hm : m.Faithful p) :
    (p.checkDecls u unit decls m).1 =
        decls.flatMap (fun (n, d) => d.references.filterMap (p.failure? u ⟨unit, n⟩)) ∧
      ∀ n d, (n, d) ∈ decls → ∀ r ∈ d.references,
        (p.checkDecls u unit decls m).2.Settles p ⟨unit, n⟩ r := by
  induction decls generalizing m with
  | nil => exact ⟨rfl, fun n d hnd => absurd hnd List.not_mem_nil⟩
  | cons x decls ih =>
    obtain ⟨n, d⟩ := x
    have hd : p.decl? ⟨unit, n⟩ = some d := by
      unfold Project.decl?
      rw [hu, Option.bind_some]
      exact h (n, d) List.mem_cons_self
    have hdecls : ∀ x ∈ decls, u.decl? x.1 = some x.2 := fun x hx => h x (.tail _ hx)
    have hstands := d.standsIn_of_mem_references
    have hhere := steady_checkReferences hd (u.qualifiedName n) hstands
    have hsteady := steady_checkDecls hu hdecls
    obtain ⟨hreport, hcells⟩ := checkReferences_spec (u := u) hd hstands hm
    obtain ⟨hreports, hcells'⟩ := ih hdecls (hhere.faithful m hm)
    constructor
    · exact congrArg₂ (· ++ ·) hreport hreports
    · intro n' d' hmem r hr
      rcases List.mem_cons.mp hmem with heq | hmem
      · cases heq
        exact (hcells r hr).mono hd (hstands r hr) (hsteady.sub _)
          (hsteady.faithful _ (hhere.faithful m hm))
      · exact hcells' n' d' hmem r hr

theorem checkUnit_spec (hu : p.unit? unit = some u) (hm : m.Faithful p) :
    (p.checkUnit unit u m).1 = u.shadowedImports unit ++
        u.visit.flatMap (fun (n, d) => d.references.filterMap (p.failure? u ⟨unit, n⟩)) ∧
      ∀ n d, (n, d) ∈ u.visit → ∀ r ∈ d.references,
        (p.checkUnit unit u m).2.Settles p ⟨unit, n⟩ r := by
  obtain ⟨hreport, hcells⟩ :=
    checkDecls_spec hu (fun _ hx => SourceUnit.decl?_of_mem_visit hx) hm
  refine ⟨?_, hcells⟩
  exact congrArg₂ (· ++ ·) (u.shadowWarnings_eq_shadowedImports unit) hreport

/-- A check does not change what a later check reports. -/
theorem checkUnits_eq {units : List SourceUnit} {i : Nat}
    (h : ∀ x ∈ units.zipIdx i, p.unit? x.2 = some x.1) {start : Memo} (hstart : start.Faithful p)
    (hm : m.Faithful p) :
    (p.checkUnits i units m).1 =
      (units.zipIdx i).flatMap fun (u, n) => (p.checkUnit n u start).1 := by
  induction units generalizing i m with
  | nil => rfl
  | cons u units ih =>
    have hsteady := steady_checkUnit (h (u, i) List.mem_cons_self)
    have hhere : (p.checkUnit i u m).1 = (p.checkUnit i u start).1 :=
      (hsteady.answer m hm).trans (hsteady.answer start hstart).symm
    have hrest := ih (fun x hx => h x (.tail _ hx)) (hsteady.faithful m hm)
    exact congrArg₂ (· ++ ·) hhere hrest

end Units

namespace Project

variable {p : Project}

theorem decl?_eq_some_iff_mem_visit (hp : p.Loaded) {unit : Nat} {u : SourceUnit}
    (hu : p.unit? unit = some u) {i : Nat} {d : Declaration} :
    p.decl? ⟨unit, i⟩ = some d ↔ (i, d) ∈ u.visit := by
  unfold decl?
  rw [hu, Option.bind_some]
  refine ⟨fun hd => ?_, SourceUnit.decl?_of_mem_visit⟩
  obtain ⟨hwf, horder⟩ := hp.units u (List.mem_of_getElem? hu)
  have hi : i ∈ u.visit.map (·.1) := by
    rw [SourceUnit.map_visit_eq_range hwf horder, List.mem_range]
    exact (List.getElem?_eq_some_iff.mp hd).1
  obtain ⟨⟨j, d'⟩, hmem, rfl⟩ := List.mem_map.mp hi
  obtain rfl : d' = d := Option.some.inj ((SourceUnit.decl?_of_mem_visit hmem).symm.trans hd)
  exact hmem

/-- A check of a unit reports its shadowed imports and then, for each declaration and each of its
references, an error if the reference cannot be resolved. The declarations are met depth first, and
the references are in the order of their places. Afterwards a target is remembered for just those
references that have one, and a second check has the same report. The check of a project reports
what the checks of its units report. None of this depends on what was asked before. -/
theorem check_reports_failures {strict : Bool} {sources : List (List Event)}
    (hp : load strict sources = .ok p) (history : List Query) :
    (∀ (d : Declaration) rs, d.ListsReferences rs ↔ rs = d.references) ∧
    (∀ unit u, p.unit? unit = some u →
      (∀ met, u.Walk u.topLevel met ↔ met = u.visit) ∧
      (p.checkUnit unit u (Query.remembered p history)).1 = u.shadowedImports unit ++
        u.visit.flatMap (fun (n, d) => d.references.filterMap (p.failure? u ⟨unit, n⟩)) ∧
      (∀ n d, (n, d) ∈ u.visit → ∀ r ∈ d.references,
        (p.checkUnit unit u (Query.remembered p history)).2.get? (r.address ⟨unit, n⟩) =
          (p.resolveReference unit r).toOption) ∧
      (p.checkUnit unit u (p.checkUnit unit u (Query.remembered p history)).2).1 =
        (p.checkUnit unit u (Query.remembered p history)).1) ∧
    (p.check (Query.remembered p history)).1 =
      p.units.zipIdx.flatMap fun (u, i) => (p.checkUnit i u (Query.remembered p history)).1 := by
  have hl := loaded_of_load hp
  have hm := Query.faithful_remembered p history
  refine ⟨fun d rs => Declaration.listsReferences_iff, fun unit u hu => ?_, ?_⟩
  · obtain ⟨hreport, hcells⟩ := checkUnit_spec hu hm
    have hmem : u ∈ p.units := List.mem_of_getElem? hu
    have hsteady := steady_checkUnit hu
    refine ⟨fun met => SourceUnit.walk_topLevel_iff (hl.units u hmem).1, hreport, hcells, ?_⟩
    rw [hsteady.answer _ (hsteady.faithful _ hm), hsteady.answer _ hm]
  · exact checkUnits_eq (fun x hx => List.mk_mem_zipIdx_iff_getElem?.mp hx) hm hm

/-- A unit with a finding of each kind, and one field whose type is found. -/
theorem check_reports_failures_of_each_kind :
    ∃ p u, load true [[.package "a", .importName "b.X" .single, .importName "c.X" .single,
        .importName "d" .wildcard, .importName "e" .wildcard, .annotate ⟨"Outer", []⟩,
        .enterType .classType "Outer", .field (.ofName "Outer.Missing") [⟨"f", 0, none⟩],
        .field (.ofName "Y") [⟨"g", 0, none⟩], .field (.ofName "X") [⟨"h", 0, none⟩],
        .exitType]] = .ok p ∧
      p.unit? 0 = some u ∧
      (p.checkUnit 0 u (Query.remembered p [.checkUnit 0])).1 =
       [⟨⟨0, .unit⟩, "<compilation unit a>", .warning, some "W0001",
          "import c.X is shadowed by import b.X"⟩,
        ⟨⟨0, .type 0⟩, "a.Outer", .error, some "E0003",
          "invalid annotation type: Outer resolves to class a.Outer"⟩,
        ⟨⟨0, .type 0⟩, "a.Outer", .error, some "E0001", "cannot resolve type: Outer.Missing"⟩,
        ⟨⟨0, .type 0⟩, "a.Outer", .error, some "E0002",
          "ambiguous type name: Y (wildcard imports: d, e)"⟩] ∧
      (p.checkUnit 0 u (Query.remembered p [.checkUnit 0])).2.get?
        (.type ⟨⟨0, 0⟩, Slot.field 2, []⟩) = some (.external "b.X") := by
  obtain ⟨p, u, d, r, hp, hu, hreport, hd, hr, haddress, htarget⟩ : ∃ p u d r,
      load true [[.package "a", .importName "b.X" .single, .importName "c.X" .single,
        .importName "d" .wildcard, .importName "e" .wildcard, .annotate ⟨"Outer", []⟩,
        .enterType .classType "Outer", .field (.ofName "Outer.Missing") [⟨"f", 0, none⟩],
        .field (.ofName "Y") [⟨"g", 0, none⟩], .field (.ofName "X") [⟨"h", 0, none⟩],
        .exitType]] = .ok p ∧
      p.unit? 0 = some u ∧
      u.shadowedImports 0 ++
        u.visit.flatMap (fun (n, d) => d.references.filterMap (p.failure? u ⟨0, n⟩)) =
       [⟨⟨0, .unit⟩, "<compilation unit a>", .warning, some "W0001",
          "import c.X is shadowed by import b.X"⟩,
        ⟨⟨0, .type 0⟩, "a.Outer", .error, some "E0003",
          "invalid annotation type: Outer resolves to class a.Outer"⟩,
        ⟨⟨0, .type 0⟩, "a.Outer", .error, some "E0001", "cannot resolve type: Outer.Missing"⟩,
        ⟨⟨0, .type 0⟩, "a.Outer", .error, some "E0002",
          "ambiguous type name: Y (wildcard imports: d, e)"⟩] ∧
      p.decl? ⟨0, 0⟩ = some d ∧ d.references[3]? = some r ∧
      r.address ⟨0, 0⟩ = .type ⟨⟨0, 0⟩, Slot.field 2, []⟩ ∧
      p.resolveReference 0 r = .ok (.external "b.X") :=
    ⟨_, _, _, _, load_of_built (.cons (by rfl) .nil) (by decide +kernel), by rfl,
      by decide +kernel, by rfl, by rfl, by rfl, by decide +kernel⟩
  obtain ⟨-, hunits, -⟩ := check_reports_failures hp [.checkUnit 0]
  obtain ⟨-, hfound, hcells, -⟩ := hunits 0 u hu
  have hmem := (decl?_eq_some_iff_mem_visit (loaded_of_load hp) hu).mp hd
  have hcell := hcells 0 d hmem r (List.mem_of_getElem? hr)
  rw [haddress, htarget] at hcell
  exact ⟨p, u, hp, hu, hfound.trans hreport, hcell⟩

end Project

end SourceModel
