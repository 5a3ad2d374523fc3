import SourceModel.Proofs.Arena
import SourceModel.Proofs.Names

/-!
# The declarations around a place

The chain of a place lists the declarations around it, innermost first: the one at index `n` is
`n` levels out (`AtLevel`). A search along the chain finds what holds at the innermost level, and
the names along it make the qualified name of a declaration (`IsFullName`).
-/

namespace SourceModel

/-! ## Levels -/

namespace SourceUnit

variable {u : SourceUnit} {c : Container} {id : Nat} {d : Declaration}

/-- The declaration `d` with the position `id` is `n` levels out, the one directly around a place
being at level 0. -/
inductive AtLevel (u : SourceUnit) : Container → Nat → Nat → Declaration → Prop where
  | zero {id : Nat} {d : Declaration} : u.decl? id = some d → AtLevel u (.type id) 0 id d
  | succ {n i id : Nat} {d e : Declaration} : u.decl? i = some e →
      AtLevel u e.container n id d → AtLevel u (.type i) (n + 1) id d

theorem chain_unit (u : SourceUnit) : u.chain .unit = [] := by
  unfold chain
  rfl

theorem chain_type_of_none (h : u.decl? id = none) : u.chain (.type id) = [] := by
  unfold decl? at h
  unfold chain
  simp only [h]

theorem chain_type (hu : u.WellFormed) (h : u.decl? id = some d) :
    u.chain (.type id) = (id, d) :: u.chain d.container := by
  have hb : d.container.bound ≤ id := by
    obtain hc | ⟨parent, hlt, hc⟩ := hu.container id d.container (containerOf?_eq_some h)
    · rw [hc]
      exact Nat.zero_le id
    · rw [hc]
      exact hlt
  unfold decl? at h
  rw [chain.eq_def]
  simp only [h, hb, dite_true]

theorem exists_chain_eq_cons (hu : u.WellFormed) (h : u.chain c ≠ []) :
    ∃ i e, c = .type i ∧ u.decl? i = some e ∧ u.chain c = (i, e) :: u.chain e.container := by
  cases c with
  | unit => exact absurd (chain_unit u) h
  | type i =>
    cases hi : u.decl? i with
    | none => exact absurd (chain_type_of_none hi) h
    | some e => exact ⟨i, e, rfl, hi, chain_type hu hi⟩

theorem chain_getElem?_eq_some_iff (hu : u.WellFormed) {n : Nat} :
    (u.chain c)[n]? = some (id, d) ↔ u.AtLevel c n id d := by
  constructor
  · intro h
    induction n generalizing c with
    | zero =>
      have hne : u.chain c ≠ [] := fun hn => by simp [hn] at h
      obtain ⟨i, e, rfl, he, hc⟩ := exists_chain_eq_cons hu hne
      rw [hc] at h
      cases h
      exact .zero he
    | succ n ih =>
      have hne : u.chain c ≠ [] := fun hn => by simp [hn] at h
      obtain ⟨i, e, rfl, he, hc⟩ := exists_chain_eq_cons hu hne
      rw [hc] at h
      exact .succ he (ih h)
  · intro h
    induction h with
    | zero hd =>
      rw [chain_type hu hd]
      rfl
    | succ hd _ ih =>
      rw [chain_type hu hd]
      exact ih

theorem AtLevel.decl? {n : Nat} (h : u.AtLevel c n id d) : u.decl? id = some d := by
  induction h with
  | zero hd => exact hd
  | succ _ _ ih => exact ih

/-- The innermost level at which `P` holds of some `a`, and the `a` for which it does. -/
def Innermost {α : Type} (u : SourceUnit) (c : Container) (P : Nat → Declaration → α → Prop)
    (a : α) : Prop :=
  ∃ n id d, u.AtLevel c n id d ∧ P id d a ∧
    ∀ m < n, ∀ id' d', u.AtLevel c m id' d' → ∀ b, ¬ P id' d' b

/-- A search along the chain finds what holds at the innermost level. -/
theorem findSome?_chain_eq_some_iff {α : Type} (hu : u.WellFormed)
    {f : Nat × Declaration → Option α} {P : Nat → Declaration → α → Prop}
    (hf : ∀ id d, u.decl? id = some d → ∀ a, f (id, d) = some a ↔ P id d a) {a : α} :
    (u.chain c).findSome? f = some a ↔ u.Innermost c P a := by
  rw [List.findSome?_eq_some_iff]
  constructor
  · rintro ⟨inner, ⟨id, d⟩, outer, hl, hfa, hnone⟩
    have ha : u.AtLevel c inner.length id d := by
      rw [← chain_getElem?_eq_some_iff hu, hl]
      simp
    refine ⟨inner.length, id, d, ha, (hf id d ha.decl? a).mp hfa, ?_⟩
    intro m hm id' d' ha' b hb
    have hmem : (id', d') ∈ inner := by
      rw [← chain_getElem?_eq_some_iff hu, hl, List.getElem?_append_left hm] at ha'
      exact List.mem_of_getElem? ha'
    rw [← hf id' d' ha'.decl? b, hnone _ hmem] at hb
    cases hb
  · rintro ⟨n, id, d, ha, hP, hmin⟩
    obtain ⟨hn, hget⟩ := List.getElem?_eq_some_iff.mp ((chain_getElem?_eq_some_iff hu).mpr ha)
    refine ⟨(u.chain c).take n, (id, d), (u.chain c).drop (n + 1), ?_, ?_, ?_⟩
    · rw [← hget, ← List.drop_eq_getElem_cons hn, List.take_append_drop]
    · exact (hf id d ha.decl? a).mpr hP
    · rintro ⟨id', d'⟩ hmem
      obtain ⟨m, hm⟩ := List.mem_iff_getElem?.mp hmem
      rw [List.getElem?_take, Option.ite_none_right_eq_some, chain_getElem?_eq_some_iff hu] at hm
      rw [Option.eq_none_iff_forall_ne_some]
      intro b hb
      exact hmin m hm.1 id' d' hm.2 b ((hf id' d' hm.2.decl? b).mp hb)

/-! ## Full names -/

/-- The names of the declarations around a place, the outermost first. -/
inductive NamesAround (u : SourceUnit) : Container → List String → Prop where
  | unit : NamesAround u .unit []
  | type {id : Nat} {d : Declaration} {names : List String} : u.decl? id = some d →
      NamesAround u d.container names → NamesAround u (.type id) (names ++ [d.name])

/-- `q` is the package, the names of the declarations around and the declaration's own name, with
dots between them. -/
def IsFullName (u : SourceUnit) (id : Nat) (q : String) : Prop :=
  ∃ names, u.NamesAround (.type id) names ∧ q = ".".intercalate (u.package.toList ++ names)

theorem NamesAround.eq {names : List String} (hu : u.WellFormed) (h : u.NamesAround c names) :
    names = ((u.chain c).map (·.2.name)).reverse := by
  induction h with
  | unit => rw [chain_unit, List.map_nil, List.reverse_nil]
  | type hd _ ih => rw [chain_type hu hd, List.map_cons, List.reverse_cons, ih]

theorem exists_namesAround (hu : u.WellFormed) (h : u.decl? id = some d) :
    ∃ names, u.NamesAround (.type id) names := by
  induction id using Nat.strongRecOn generalizing d with
  | ind id ih =>
    obtain ⟨names, hnames⟩ : ∃ names, u.NamesAround d.container names := by
      obtain hc | ⟨parent, hlt, hc⟩ := hu.container id d.container (containerOf?_eq_some h)
      · rw [hc]
        exact ⟨[], .unit⟩
      · have hid : id < u.decls.length := (List.getElem?_eq_some_iff.mp h).1
        rw [hc]
        exact ih parent hlt (List.getElem?_eq_getElem (Nat.lt_trans hlt hid))
    exact ⟨_, .type h hnames⟩

/-- The qualified name is the full name, and only declarations have one. -/
theorem isFullName_iff (hu : u.WellFormed) {q : String} :
    u.IsFullName id q ↔ id < u.typeCount ∧ u.qualifiedName id = q := by
  have hjoin : ∀ names, u.NamesAround (.type id) names →
      u.qualifiedName id = ".".intercalate (u.package.toList ++ names) := by
    intro names hnames
    rw [qualifiedName, ← hnames.eq hu, Name.join_eq_intercalate]
  constructor
  · rintro ⟨names, hnames, rfl⟩
    refine ⟨?_, hjoin names hnames⟩
    cases hnames with
    | type hd _ => exact (List.getElem?_eq_some_iff.mp hd).1
  · rintro ⟨hlt, rfl⟩
    obtain ⟨names, hnames⟩ := exists_namesAround hu (List.getElem?_eq_getElem hlt)
    exact ⟨names, hnames, hjoin names hnames⟩

/-! ## Declarations by container and name -/

/-- The qualified name of a declaration depends on what is around it and on its own name. -/
theorem qualifiedName_eq (hu : u.WellFormed) (h : u.decl? id = some d) :
    u.qualifiedName id =
      Name.join (u.package.toList ++ ((u.chain d.container).map (·.2.name)).reverse ++
        [d.name]) := by
  unfold qualifiedName
  rw [chain_type hu h, List.map_cons, List.reverse_cons, List.append_assoc]

/-- The declaration of the given name directly in the container. -/
def IsNamedIn (u : SourceUnit) (c : Container) (name : String) (id : Nat) : Prop :=
  ∃ d, u.decl? id = some d ∧ d.container = c ∧ d.name = name

theorem isNamed_iff {name : String} :
    u.isNamed name id = true ↔ ∃ d, u.decl? id = some d ∧ d.name = name := by
  unfold isNamed
  simp [Option.any_eq_true]

theorem mem_entries_and_isNamed_iff (hu : u.WellFormed) {name : String} :
    id ∈ u.entries c ∧ u.isNamed name id = true ↔ u.IsNamedIn c name id := by
  rw [(hu.lists c).mem_iff, isNamed_iff]
  constructor
  · rintro ⟨hc, d, hd, hn⟩
    rw [containerOf?_eq_some hd] at hc
    exact ⟨d, hd, Option.some.inj hc, hn⟩
  · rintro ⟨d, hd, rfl, hn⟩
    exact ⟨containerOf?_eq_some hd, d, hd, hn⟩

/-- The search of a container's list finds the declaration of the name, if there is at most one. -/
theorem find?_entries_eq_some_iff (hu : u.WellFormed) {name : String}
    (hone : ∀ i j, u.IsNamedIn c name i → u.IsNamedIn c name j → i = j) :
    (u.entries c).find? (u.isNamed name) = some id ↔ u.IsNamedIn c name id := by
  rw [← mem_entries_and_isNamed_iff hu]
  constructor
  · intro h
    exact ⟨List.mem_of_find?_eq_some h, List.find?_some h⟩
  · rintro ⟨hm, hn⟩
    cases hf : (u.entries c).find? (u.isNamed name) with
    | none => exact absurd hn (List.find?_eq_none.mp hf id hm)
    | some i =>
      have hi := (mem_entries_and_isNamed_iff hu).mp
        ⟨List.mem_of_find?_eq_some hf, List.find?_some hf⟩
      rw [hone i id hi ((mem_entries_and_isNamed_iff hu).mp ⟨hm, hn⟩)]

end SourceUnit

end SourceModel
