import SourceModel.Proofs.InRange
import SourceModel.Proofs.Unchecked

/-!
# Shadowed imports are never used

Two searches go through the imports of a unit. A name is looked up among all of them, and the first
single import that has it is used. A check looks for each single import among those before it, and
warns if one of them has its simple name. Told by the numbers of the imports, the second search is
the first one cut short (`SourceUnit.find?_earlier_eq_some_iff`). So the imports that get a warning
are those that are used for no name, and the warning names the import that is used.
-/

namespace SourceModel

/-! ## The import that is used -/

/-- The type that an import stands for: a declared one, or one outside the project. -/
def Import.target (p : Project) (i : Import) : Target :=
  (p.findType? i.name).elim (.external i.name) .declared

namespace SourceUnit

variable {u : SourceUnit} {unit n : Nat} {name : String} {i : Import}

/-- The number of the import that is used for a simple name. -/
def importNumber? (u : SourceUnit) (name : String) : Option Nat :=
  u.imports.findIdx? (Lookup.Imports name ·)

theorem findImport?_eq_bind (u : SourceUnit) (name : String) :
    u.findImport? name = (u.importNumber? name).bind (u.imports[·]?) := by
  rw [Lookup.findImport?_eq_find?, List.find?_eq_bind_findIdx?_getElem?]
  rfl

theorem importNumber?_eq_some_iff :
    u.importNumber? name = some n ↔
      (∃ i, u.imports[n]? = some i ∧ Lookup.Imports name i) ∧
        ∀ k < n, u.importNumber? name ≠ some k := by
  unfold importNumber?
  rw [List.findIdx?_eq_some_iff_getElem]
  constructor
  · rintro ⟨hn, hsuits, hmin⟩
    refine ⟨⟨u.imports[n], List.getElem?_eq_getElem hn, of_decide_eq_true hsuits⟩, ?_⟩
    intro k hk hfound
    obtain ⟨_, hk', -⟩ := List.findIdx?_eq_some_iff_getElem.mp hfound
    exact hmin k hk hk'
  · rintro ⟨⟨i, hi, himports⟩, hmin⟩
    obtain ⟨hn, rfl⟩ := List.getElem?_eq_some_iff.mp hi
    refine ⟨hn, decide_eq_true himports, fun k hk hsuits => ?_⟩
    -- the first import that suits is not before `n`, and `k` is
    have hsome : (u.imports.findIdx? (Lookup.Imports name ·)).isSome := by
      rw [List.findIdx?_isSome, List.any_eq_true]
      exact ⟨_, List.getElem_mem _, hsuits⟩
    obtain ⟨l, hl⟩ := Option.isSome_iff_exists.mp hsome
    obtain ⟨_, _, hfirst⟩ := List.findIdx?_eq_some_iff_getElem.mp hl
    have hlk : l ≤ k := Nat.le_of_not_lt fun hlt => hfirst k hlt hsuits
    exact hmin l (by omega) hl

/-! ## The imports that get a warning -/

/-- The search among the imports before one finds what is used for the name, if that is before. -/
theorem find?_earlier_eq_some_iff {winner : Import} :
    (u.imports.take n).find? (Lookup.Imports name ·) = some winner ↔
      ∃ k < n, u.importNumber? name = some k ∧ u.imports[k]? = some winner := by
  rw [List.find?_eq_bind_findIdx?_getElem?, List.findIdx?_take]
  constructor
  · intro h
    obtain ⟨k, hk, hwinner⟩ := Option.bind_eq_some_iff.mp h
    obtain ⟨k', hnumber, hguard⟩ := Option.bind_eq_some_iff.mp hk
    obtain ⟨rfl, hlt⟩ := Option.guard_eq_some_iff.mp hguard
    have hlt : k' < n := of_decide_eq_true hlt
    rw [List.getElem?_take_of_lt hlt] at hwinner
    exact ⟨k', hlt, hnumber, hwinner⟩
  · rintro ⟨k, hlt, hnumber, hwinner⟩
    have hguard : Option.guard (fun j => decide (j < n)) k = some k := by simp [hlt]
    unfold importNumber? at hnumber
    rw [hnumber, Option.bind_some, hguard, Option.bind_some, List.getElem?_take_of_lt hlt]
    exact hwinner

theorem importWarning?_eq_some_iff (hi : u.imports[n]? = some i) (hsingle : i.kind = .single)
    {x : Diagnostic} :
    u.importWarning? unit n = some x ↔
      ∃ k < n, ∃ winner, u.importNumber? (Name.lastSegment i.name) = some k ∧
        u.imports[k]? = some winner ∧
        x = .shadowed unit (u.containerName .unit) i winner := by
  rw [importWarning?, hi, Option.bind_some, Import.warning?, if_pos hsingle,
    Option.map_eq_some_iff]
  simp only [find?_earlier_eq_some_iff]
  constructor
  · rintro ⟨winner, ⟨k, hlt, hnumber, hwinner⟩, rfl⟩
    exact ⟨k, hlt, winner, hnumber, hwinner, rfl⟩
  · rintro ⟨k, hlt, winner, hnumber, hwinner, rfl⟩
    exact ⟨winner, ⟨k, hlt, hnumber, hwinner⟩, rfl⟩

theorem exists_importWarning?_iff (hi : u.imports[n]? = some i) (hsingle : i.kind = .single) :
    (∃ x, u.importWarning? unit n = some x) ↔
      ∃ k < n, u.importNumber? (Name.lastSegment i.name) = some k := by
  simp only [importWarning?_eq_some_iff hi hsingle]
  constructor
  · rintro ⟨x, k, hlt, winner, hnumber, -, -⟩
    exact ⟨k, hlt, hnumber⟩
  · rintro ⟨k, hlt, hnumber⟩
    obtain ⟨⟨winner, hwinner, -⟩, -⟩ := importNumber?_eq_some_iff.mp hnumber
    exact ⟨_, k, hlt, winner, hnumber, hwinner, rfl⟩

/-- An import is used for a name exactly if it has the name and no warning. -/
theorem importNumber?_iff_no_warning (unit : Nat) :
    u.importNumber? name = some n ↔
      ∃ i, u.imports[n]? = some i ∧ Lookup.Imports name i ∧ u.importWarning? unit n = none := by
  rw [importNumber?_eq_some_iff]
  have hwarning : ∀ i, u.imports[n]? = some i → Lookup.Imports name i →
      (u.importWarning? unit n = none ↔ ∀ k < n, u.importNumber? name ≠ some k) := by
    rintro i hi ⟨hsingle, rfl⟩
    rw [← Option.not_isSome_iff_eq_none, Option.isSome_iff_exists,
      exists_importWarning?_iff hi hsingle]
    simp
  constructor
  · rintro ⟨⟨i, hi, himports⟩, hmin⟩
    exact ⟨i, hi, himports, (hwarning i hi himports).mpr hmin⟩
  · rintro ⟨i, hi, himports, hnone⟩
    exact ⟨⟨i, hi, himports⟩, (hwarning i hi himports).mp hnone⟩

/-! ## The report -/

end SourceUnit

theorem LookupError.code_ne_shadowed (e : LookupError) : e.code ≠ "W0001" := by
  cases e <;> simp [code]

/-- Of what a check of a unit reports, only the warnings for imports have their code. -/
theorem Project.filter_checkUnit {p : Project} {u : SourceUnit} {unit : Nat} {m : Memo}
    (hu : p.unit? unit = some u) (hm : m.Faithful p) :
    (p.checkUnit unit u m).1.filter (·.code = some "W0001") =
      (List.range u.imports.length).filterMap (u.importWarning? unit) := by
  rw [(checkUnit_spec hu hm).1, List.filter_append]
  have hwarnings : (u.shadowedImports unit).filter (·.code = some "W0001") =
      u.shadowedImports unit := by
    rw [List.filter_eq_self]
    intro x hx
    obtain ⟨i, winner, rfl⟩ := SourceUnit.exists_of_mem_shadowedImports hx
    rfl
  rw [hwarnings, ← SourceUnit.shadowedImports, List.append_right_eq_self, List.filter_eq_nil_iff]
  -- the rest are errors of look-ups
  intro x hx hcode
  obtain ⟨⟨n, d⟩, -, hx⟩ := List.mem_flatMap.mp hx
  obtain ⟨r, -, hfailure⟩ := List.mem_filterMap.mp hx
  obtain ⟨e, -, rfl⟩ := failure?_eq_some_iff.mp hfailure
  exact e.code_ne_shadowed (Option.some.inj (of_decide_eq_true hcode))

/-! ## The rule for imports -/

namespace Lookup

variable {p : Project} {u : SourceUnit} {name : String} {t : Target}

theorem byImport_iff_findImport? (hp : p.Loaded) :
    ByImport p u name t ↔ ∃ i, u.findImport? name = some i ∧ i.target p = t := by
  rw [← imported?_eq_some_iff hp, imported?_eq, Option.map_eq_some_iff]
  rfl

/-- The rule for imports takes the only import of the name without a warning. -/
theorem byImport_iff_no_warning (hp : p.Loaded) (unit : Nat) :
    ByImport p u name t ↔
      ∃ n i, u.imports[n]? = some i ∧ Imports name i ∧ u.importWarning? unit n = none ∧
        i.target p = t := by
  rw [byImport_iff_findImport? hp]
  simp only [SourceUnit.findImport?_eq_bind, Option.bind_eq_some_iff,
    SourceUnit.importNumber?_iff_no_warning unit]
  constructor
  · rintro ⟨i, ⟨n, ⟨j, hj, himports, hnone⟩, hi⟩, ht⟩
    obtain rfl := Option.some.inj (hi.symm.trans hj)
    exact ⟨n, i, hi, himports, hnone, ht⟩
  · rintro ⟨n, i, hi, himports, hnone, ht⟩
    exact ⟨i, ⟨n, ⟨i, hi, himports, hnone⟩, hi⟩, ht⟩

end Lookup

namespace Project

variable {p : Project} {u : SourceUnit} {unit : Nat}

/-- Where no type parameter and no type around has the name, the import decides. -/
theorem resolve_of_byImport (hp : p.Loaded) {scope : Scope} (hu : p.unit? scope.unit = some u)
    {name : String} (hname : '.' ∉ name.toList)
    (hparam : ∀ t, ¬ Lookup.ByTypeParam u scope name t)
    (haround : ∀ t, ¬ Lookup.ByEnclosing u scope name t) {t : Target}
    (h : Lookup.ByImport p u name t) : p.resolve scope name = .ok t := by
  rw [resolve_eq_resolveSimple hname, Lookup.resolveSimple_eq_iff_decides hp hu]
  refine .later ?_ (.later ?_ (.first ⟨t, h, rfl⟩))
  · rintro r ⟨t, ht, -⟩
    exact hparam t ht
  · rintro r ⟨t, ht, -⟩
    exact haround t ht

/-- The warnings about imports and the use of imports agree. A check warns of the imports in their
order. A single import gets a warning exactly if an earlier one is found for its simple name, and
the message names the one found. So an import with a warning is used for no name, and one without
is used for its own: the rule for imports takes it, and it decides where no type parameter and no
type around has the name. None of this depends on what was asked before. -/
theorem warned_imports_are_not_used {strict : Bool} {sources : List (List Event)}
    (hp : load strict sources = .ok p) (history : List Query) (hu : p.unit? unit = some u) :
    (p.checkUnit unit u (Query.remembered p history)).1.filter (·.code = some "W0001") =
      (List.range u.imports.length).filterMap (u.importWarning? unit) ∧
    (∀ name, u.findImport? name = (u.importNumber? name).bind (u.imports[·]?)) ∧
    (∀ n i, u.imports[n]? = some i → i.kind = .single →
      ((∃ x, u.importWarning? unit n = some x) ↔
        ∃ k < n, u.importNumber? (Name.lastSegment i.name) = some k) ∧
      (∀ x, u.importWarning? unit n = some x →
        ∃ winner, u.findImport? (Name.lastSegment i.name) = some winner ∧
          x = .shadowed unit (u.containerName .unit) i winner ∧
          x.message = "import " ++ i.name ++ " is shadowed by import " ++ winner.name) ∧
      (u.importWarning? unit n = none → u.importNumber? (Name.lastSegment i.name) = some n)) ∧
    (∀ n x, u.importWarning? unit n = some x → ∀ name, u.importNumber? name ≠ some n) ∧
    (∀ name t, Lookup.ByImport p u name t ↔
      ∃ n i, u.imports[n]? = some i ∧ Lookup.Imports name i ∧ u.importWarning? unit n = none ∧
        i.target p = t) ∧
    ∀ n i, u.imports[n]? = some i → i.kind = .single → u.importWarning? unit n = none →
      ∀ c, (∀ t, ¬ Lookup.ByTypeParam u ⟨unit, c⟩ (Name.lastSegment i.name) t) →
        (∀ t, ¬ Lookup.ByEnclosing u ⟨unit, c⟩ (Name.lastSegment i.name) t) →
        p.resolve ⟨unit, c⟩ (Name.lastSegment i.name) = .ok (i.target p) := by
  have hl := loaded_of_load hp
  refine ⟨filter_checkUnit hu (Query.faithful_remembered p history), u.findImport?_eq_bind,
    fun n i hi hsingle => ⟨SourceUnit.exists_importWarning?_iff hi hsingle, ?_, ?_⟩, ?_,
    fun name t => Lookup.byImport_iff_no_warning hl unit, ?_⟩
  · intro x hx
    obtain ⟨k, -, winner, hnumber, hwinner, rfl⟩ :=
      (SourceUnit.importWarning?_eq_some_iff hi hsingle).mp hx
    refine ⟨winner, ?_, rfl, rfl⟩
    rw [SourceUnit.findImport?_eq_bind, hnumber]
    exact hwinner
  · intro hnone
    exact (SourceUnit.importNumber?_iff_no_warning unit).mpr ⟨i, hi, ⟨hsingle, rfl⟩, hnone⟩
  · intro n x hx name hnumber
    obtain ⟨i, -, -, hnone⟩ := (SourceUnit.importNumber?_iff_no_warning unit).mp hnumber
    rw [hx] at hnone
    cases hnone
  · intro n i hi hsingle hnone c hparam haround
    refine resolve_of_byImport hl hu (Name.not_mem_lastSegment i.name) hparam haround ?_
    exact (Lookup.byImport_iff_no_warning hl unit).mpr ⟨n, i, hi, ⟨hsingle, rfl⟩, hnone, rfl⟩

/-- Behind a wildcard, three imports of one simple name: two of them get a warning, one of these for
the very import that is used. -/
theorem warned_imports_of_one_name :
    ∃ p u, load true [[.importName "a" .wildcard, .importName "b.X" .single,
        .importName "c.X" .single, .importName "b.X" .single, .enterType .classType "C",
        .exitType]] = .ok p ∧
      p.unit? 0 = some u ∧
      (p.checkUnit 0 u (Query.remembered p [.checkUnit 0])).1.filter (·.code = some "W0001") =
       [⟨⟨0, .unit⟩, "<compilation unit>", .warning, some "W0001",
          "import c.X is shadowed by import b.X"⟩,
        ⟨⟨0, .unit⟩, "<compilation unit>", .warning, some "W0001",
          "import b.X is shadowed by import b.X"⟩] ∧
      (∃ x, u.importWarning? 0 3 = some x) ∧ u.importNumber? "X" ≠ some 3 ∧
      u.importWarning? 0 1 = none ∧ u.importNumber? "X" = some 1 ∧
      p.resolve ⟨0, .unit⟩ "X" = .ok (.external "b.X") := by
  obtain ⟨p, u, i, x, hp, hu, hwarnings, hi, hsingle, hsimple, htarget, hnone, hx⟩ : ∃ p u i x,
      load true [[.importName "a" .wildcard, .importName "b.X" .single,
        .importName "c.X" .single, .importName "b.X" .single, .enterType .classType "C",
        .exitType]] = .ok p ∧
      p.unit? 0 = some u ∧
      (List.range u.imports.length).filterMap (u.importWarning? 0) =
       [⟨⟨0, .unit⟩, "<compilation unit>", .warning, some "W0001",
          "import c.X is shadowed by import b.X"⟩,
        ⟨⟨0, .unit⟩, "<compilation unit>", .warning, some "W0001",
          "import b.X is shadowed by import b.X"⟩] ∧
      u.imports[1]? = some i ∧ i.kind = .single ∧ Name.lastSegment i.name = "X" ∧
      i.target p = .external "b.X" ∧ u.importWarning? 0 1 = none ∧ u.importWarning? 0 3 = some x :=
    ⟨_, _, _, _, load_of_built (.cons (by rfl) .nil) (by decide +kernel), by rfl, by decide +kernel,
      by rfl, by rfl, by decide +kernel, by decide +kernel, by decide +kernel, by rfl⟩
  obtain ⟨hreport, -, heach, hwarned, -, hresolve⟩ :=
    warned_imports_are_not_used hp [.checkUnit 0] hu
  have hused := (heach 1 i hi hsingle).2.2 hnone
  have hdecided := hresolve 1 i hi hsingle hnone .unit
  rw [hsimple, htarget] at hdecided
  rw [hsimple] at hused
  refine ⟨p, u, hp, hu, hreport.trans hwarnings, ⟨x, hx⟩, hwarned 3 x hx "X", hnone, hused,
    hdecided ?_ ?_⟩
  · rintro t ⟨n, owner, d, hd, -⟩
    cases hd
  · rintro t ⟨n, owner, d, hd, -⟩
    cases hd

end Project

end SourceModel
