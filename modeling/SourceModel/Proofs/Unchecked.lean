import SourceModel.Proofs.Checking

/-!
# What a check does not look at

A declaration refers to types and annotations from its own types and elements, and also from
values: the initializers of its fields and the values of its annotations, where objects are created
and annotations are used at any depth. A check looks up all references of the first kind
(`Query.exists_reference_of_answer`) and none of the second (`Address.InValue`). So a check without
errors tells that all references outside values have a target, and no more than that.
-/

namespace SourceModel

namespace Address

/-- The declaration in which the address lies. -/
def decl : Address → DeclId
  | .annotationUse site => site.decl
  | .annotationValue decl _ => decl
  | .type site => site.decl

/-- The address leads into an initializer or into a value of an annotation. -/
def InValue : Address → Prop
  | .annotationUse _ => False
  | .annotationValue .. => True
  | .type site => ∃ value, site.slot = .created value

/-- The address leads to a part of the type behind it. -/
def IsQualifier : Address → Prop
  | .type site => site.path.getLast? = some .qualifier
  | _ => False

end Address

/-- A type that is no qualifier, or an annotation, stands at the address and has no target. -/
def Project.FailsAt (p : Project) (m : Memo) (a : Address) : Prop :=
  ¬ a.IsQualifier ∧ ∃ e, ((Query.target a).run p m).1 = some (.error e)

instance {a : Address} : DecidableEq (Query.target a).Answer :=
  inferInstanceAs (DecidableEq (Except LookupError Target))

/-! ## References outside values -/

namespace Reference

theorem not_inValue_address (id : DeclId) (r : Reference) : ¬ (r.address id).InValue := by
  cases r with
  | annotationUse element i use => exact not_false
  | type slot o => exact fun h => nomatch h

theorem isQualifier_address_iff {id : DeclId} {r : Reference} :
    (r.address id).IsQualifier ↔ r.IsQualifier := by
  cases r <;> rfl

theorem decl_address (id : DeclId) (r : Reference) : (r.address id).decl = id := by
  cases r <;> rfl

end Reference

namespace Query

open Project

variable {p : Project} {a : Address} {m : Memo} {id : DeclId} {d : Declaration} {r : Reference}

/-- The target of a reference can be asked for at its address. -/
theorem answer_target_address (hm : m.Faithful p) (hd : p.decl? id = some d) (hr : r.StandsIn d) :
    ((target (r.address id)).run p m).1 = some (p.resolveReference id.unit r) := by
  rw [← answer_targetOf hd hr hm]
  cases r with
  | annotationUse element i use =>
    have hat := annotationAt?_eq_some_iff.mpr ⟨d, hd, hr⟩
    show (about (p.annotationAt? ⟨id, element, i⟩) _ m).1 = _
    rw [hat]
    rfl
  | type slot o =>
    have hat := namedTypeAt?_eq_some_iff.mpr ⟨d, hd, hr⟩
    show (about (p.namedTypeAt? ⟨id, slot, o.path⟩) _ m).1 = _
    rw [hat]
    rfl

theorem exists_of_answer_about {α β : Type} {found : Option α} {ask : α → QueryM β} {b : β}
    (h : (about found ask m).1 = some b) : ∃ x, found = some x := by
  cases found with
  | none => cases h
  | some x => exact ⟨x, rfl⟩

/-- Outside values, the targets that can be asked for are those of the references. -/
theorem exists_reference_of_answer (hv : ¬ a.InValue) (hq : ¬ a.IsQualifier)
    {answer : Except LookupError Target} (h : ((target a).run p m).1 = some answer) :
    ∃ id d r, p.decl? id = some d ∧ r ∈ d.references ∧ a = r.address id := by
  cases a with
  | annotationValue decl site => exact absurd trivial hv
  | annotationUse site =>
    obtain ⟨use, huse⟩ := exists_of_answer_about h
    obtain ⟨d, hd, hat⟩ := annotationAt?_eq_some_iff.mp huse
    exact ⟨site.decl, d, _, hd, Declaration.mem_references_iff.mpr ⟨hat, hq⟩, rfl⟩
  | type site =>
    obtain ⟨decl, slot, path⟩ := site
    obtain ⟨ty, hty⟩ := exists_of_answer_about h
    cases slot with
    | created value => exact absurd ⟨value, rfl⟩ hv
    | declared slot =>
      obtain ⟨d, hd, hat⟩ := (namedTypeAt?_eq_some_iff (o := ⟨path, ty⟩)).mp hty
      exact ⟨decl, d, _, hd, Declaration.mem_references_iff.mpr ⟨hat, hq⟩, rfl⟩

end Query

namespace Project

variable {p : Project} {m : Memo}

theorem failsAt_address_iff (hm : m.Faithful p) {id : DeclId} {d : Declaration}
    (hd : p.decl? id = some d) {r : Reference} (hr : r ∈ d.references) :
    p.FailsAt m (r.address id) ↔ ∃ e, p.resolveReference id.unit r = .error e := by
  obtain ⟨hstands, hq⟩ := Declaration.mem_references_iff.mp hr
  unfold FailsAt
  rw [Query.answer_target_address hm hd hstands, Reference.isQualifier_address_iff]
  constructor
  · rintro ⟨-, e, he⟩
    exact ⟨e, Option.some.inj he⟩
  · rintro ⟨e, he⟩
    exact ⟨hq, e, congrArg some he⟩

end Project

/-! ## Errors -/

theorem SourceUnit.severity_of_mem_shadowedImports {u : SourceUnit} {unit : Nat} :
    ∀ x ∈ u.shadowedImports unit, x.severity = .warning := by
  intro x hx
  obtain ⟨i, winner, rfl⟩ := exists_of_mem_shadowedImports hx
  rfl

namespace Project

variable {p : Project} {u : SourceUnit} {unit : Nat} {m : Memo}

theorem failure?_eq_some_iff {id : DeclId} {r : Reference} {x : Diagnostic} :
    p.failure? u id r = some x ↔
      ∃ e, p.resolveReference id.unit r = .error e ∧
        Diagnostic.ofLookupError (u.qualifiedName id.decl) e = x := by
  unfold failure?
  cases p.resolveReference id.unit r with
  | ok t => simp
  | error e => simp [Diagnostic.ofLookupError]

/-- A check of a unit reports an error exactly if a reference of a declaration fails. -/
theorem hasErrors_checkUnit_iff (hp : p.Loaded) (hu : p.unit? unit = some u) (hm : m.Faithful p) :
    Report.hasErrors ⟨(p.checkUnit unit u m).1⟩ ↔
      ∃ i d, p.decl? ⟨unit, i⟩ = some d ∧
        ∃ r ∈ d.references, ∃ e, p.resolveReference unit r = .error e := by
  rw [(checkUnit_spec hu hm).1, Report.hasErrors, List.any_append, Bool.or_eq_true,
    List.any_eq_true, List.any_eq_true]
  constructor
  · rintro (⟨x, hx, herror⟩ | ⟨x, hx, -⟩)
    · rw [SourceUnit.severity_of_mem_shadowedImports x hx] at herror
      cases herror
    · obtain ⟨⟨i, d⟩, hmem, hx⟩ := List.mem_flatMap.mp hx
      obtain ⟨r, hr, hfailure⟩ := List.mem_filterMap.mp hx
      obtain ⟨e, he, -⟩ := failure?_eq_some_iff.mp hfailure
      exact ⟨i, d, (decl?_eq_some_iff_mem_visit hp hu).mpr hmem, r, hr, e, he⟩
  · rintro ⟨i, d, hd, r, hr, e, he⟩
    have hmem := (decl?_eq_some_iff_mem_visit hp hu).mp hd
    refine .inr ⟨.ofLookupError (u.qualifiedName i) e, ?_, rfl⟩
    refine List.mem_flatMap.mpr ⟨(i, d), hmem, List.mem_filterMap.mpr ⟨r, hr, ?_⟩⟩
    exact failure?_eq_some_iff.mpr ⟨e, he, rfl⟩

theorem exists_failure_outside_values_iff (hm : m.Faithful p) :
    (∃ a : Address, a.decl.unit = unit ∧ ¬ a.InValue ∧ p.FailsAt m a) ↔
      ∃ i d, p.decl? ⟨unit, i⟩ = some d ∧
        ∃ r ∈ d.references, ∃ e, p.resolveReference unit r = .error e := by
  constructor
  · rintro ⟨a, rfl, hv, hfails⟩
    obtain ⟨hq, e, he⟩ := hfails
    obtain ⟨id, d, r, hd, hr, rfl⟩ := Query.exists_reference_of_answer hv hq he
    rw [Reference.decl_address]
    exact ⟨id.decl, d, hd, r, hr, (failsAt_address_iff hm hd hr).mp ⟨hq, e, he⟩⟩
  · rintro ⟨i, d, hd, r, hr, hfails⟩
    refine ⟨r.address ⟨unit, i⟩, ?_, r.not_inValue_address _, ?_⟩
    · rw [Reference.decl_address]
    · exact (failsAt_address_iff hm hd hr).mpr hfails

/-- A check of a unit reports no error exactly if every type and every annotation outside values
has a target. So it says that all of them have one, also those in values, unless something fails
in values only. None of this depends on what was asked before. -/
theorem check_without_errors_iff {strict : Bool} {sources : List (List Event)}
    (hp : load strict sources = .ok p) (history later : List Query) (hu : p.unit? unit = some u) :
    (Report.hasErrors ⟨(p.checkUnit unit u (Query.remembered p history)).1⟩ = false ↔
      ∀ a : Address, a.decl.unit = unit → ¬ a.InValue →
        ¬ p.FailsAt (Query.remembered p later) a) ∧
    ((Report.hasErrors ⟨(p.checkUnit unit u (Query.remembered p history)).1⟩ = false →
        ∀ a : Address, a.decl.unit = unit → ¬ p.FailsAt (Query.remembered p later) a) ↔
      ((∃ a : Address, a.decl.unit = unit ∧ p.FailsAt (Query.remembered p later) a) →
        ∃ a : Address, a.decl.unit = unit ∧ ¬ a.InValue ∧
          p.FailsAt (Query.remembered p later) a)) := by
  have hm := Query.faithful_remembered p history
  have hn := Query.faithful_remembered p later
  have herrors := (hasErrors_checkUnit_iff (loaded_of_load hp) hu hm).trans
    (exists_failure_outside_values_iff hn).symm
  have hquiet : Report.hasErrors ⟨(p.checkUnit unit u (Query.remembered p history)).1⟩ = false ↔
      ∀ a : Address, a.decl.unit = unit → ¬ a.InValue →
        ¬ p.FailsAt (Query.remembered p later) a := by
    rw [← Bool.not_eq_true, herrors]
    simp only [not_exists, not_and]
  refine ⟨hquiet, ?_, ?_⟩
  · rintro hcomplete ⟨a, ha, hfails⟩
    refine herrors.mp (Bool.of_not_eq_false fun hnone => ?_)
    exact hcomplete hnone a ha hfails
  · intro hshown hnone a ha hfails
    obtain ⟨b, hb, hv, hfails⟩ := hshown ⟨a, ha, hfails⟩
    exact hquiet.mp hnone b hb hv hfails

/-- An initializer creates an object of a type that does not exist. The check of the unit reports
nothing, and still the type has no target. -/
theorem check_misses_created_type :
    ∃ p u, load true [[.enterType .classType "C", .field (.ofName "int")
        [⟨"f", 0, some [.token "new", .creation (.ofName "C.Missing") []]⟩], .exitType]] = .ok p ∧
      p.unit? 0 = some u ∧ (p.checkUnit 0 u .empty).1 = [] ∧
      p.FailsAt .empty (.type ⟨⟨0, 0⟩, .created ⟨.initializer 0, []⟩, []⟩) :=
  ⟨_, _, load_of_built (.cons (by rfl) .nil) (by decide +kernel), by rfl, by decide +kernel,
    by simp [Address.IsQualifier], .unresolved ⟨0, .type 0⟩ "C.Missing", by decide +kernel⟩

/-- In the value of an annotation a class is used as an annotation. There is no error, so nothing
fails outside values. -/
theorem check_without_errors_and_class_as_annotation :
    ∃ p u, load true [[.annotate ⟨"A", [⟨"value", [.annotationUse ⟨"C", []⟩]⟩]⟩,
        .enterType .classType "C", .exitType]] = .ok p ∧
      p.unit? 0 = some u ∧
      (∀ a : Address, a.decl.unit = 0 → ¬ a.InValue → ¬ p.FailsAt .empty a) ∧
      p.FailsAt .empty (.annotationValue ⟨0, 0⟩ ⟨.annotationValue .type 0 0, []⟩) := by
  obtain ⟨p, u, hp, hu, hreport, hfails⟩ : ∃ p u,
      load true [[.annotate ⟨"A", [⟨"value", [.annotationUse ⟨"C", []⟩]⟩]⟩,
        .enterType .classType "C", .exitType]] = .ok p ∧
      p.unit? 0 = some u ∧ Report.hasErrors ⟨(p.checkUnit 0 u .empty).1⟩ = false ∧
      p.FailsAt .empty (.annotationValue ⟨0, 0⟩ ⟨.annotationValue .type 0 0, []⟩) :=
    ⟨_, _, load_of_built (.cons (by rfl) .nil) (by decide +kernel), by rfl, by decide +kernel,
      not_false, .notAnnotationType ⟨0, .type 0⟩ "C" "class C", by decide +kernel⟩
  exact ⟨p, u, hp, hu, (check_without_errors_iff hp [] [] hu).1.mp hreport, hfails⟩

end Project

end SourceModel
