import Mathlib.Data.String.Basic
import SourceModel.Proofs.DumpedParts
import SourceModel.Proofs.Properties

/-!
# Names of accessors

The getter and the setter of a field are named after it, and from their names the name of a property
is derived again. This need not be the name of the field: the first letter is put in upper case on
the way out, and comes back unless the two first characters look like an acronym
(`Name.decapitalize_capitalize_eq_iff`). Whatever comes back, it is the same for the getter and the
setter, since the type of the getter decides on its verb in the same way both times.
-/

namespace SourceModel

/-! ## Case -/

namespace Text

variable {c : Char}

theorem upper_ascii (h : c.toNat < 128) : upper c = [c.toUpper] := if_pos h

theorem lower_ascii (h : c.toNat < 128) : lower c = [c.toLower] := if_pos h

/-- There are few ASCII characters: what is said of them can be tried on each. -/
@[elab_as_elim]
theorem ascii_induction {motive : Char → Prop} (h : c.toNat < 128)
    (hall : ∀ n < 128, motive (Char.ofNat n)) : motive c := by
  rw [← Char.ofNat_toNat c]
  exact hall c.toNat h

theorem toUpper_eq_iff (h : c.toNat < 128) : c.toUpper = c ↔ ¬ c.isLower :=
  ascii_induction h (by decide)

theorem toLower_eq_iff (h : c.toNat < 128) : c.toLower = c ↔ ¬ c.isUpper :=
  ascii_induction h (by decide)

theorem not_isUpper_iff (h : c.toNat < 128) : ¬ c.isUpper ↔ ¬ c.isAlpha ∨ c.isLower :=
  ascii_induction h (by decide)

theorem not_isLower_iff (h : c.toNat < 128) : ¬ c.isLower ↔ ¬ c.isAlpha ∨ c.isUpper :=
  ascii_induction h (by decide)

theorem isLower_toUpper (h : c.toNat < 128) : c.toUpper.isLower = false :=
  ascii_induction h (by decide)

theorem toLower_toUpper (h : c.toNat < 128) : c.toUpper.toLower = c.toLower :=
  ascii_induction h (by decide)

theorem toNat_toUpper_lt (h : c.toNat < 128) : c.toUpper.toNat < 128 :=
  ascii_induction h (by decide)

/-- Of the ASCII characters, all but the small letters count as upper case. -/
theorem isUpper_ascii (h : c.toNat < 128) : isUpper c = !c.isLower := by
  unfold isUpper
  rw [upper_ascii h, Bool.eq_iff_iff]
  simp [toUpper_eq_iff h]

end Text

namespace Name

/-- The first character is no letter; or it is a small letter and the second, if there is one, is a
small letter too; or it is a capital and the second is there and no small letter. -/
def KeptByAccessors (name : String) : Prop :=
  ∃ c ∈ name.toList.head?,
    ¬ c.isAlpha ∨
      c.isLower ∧ (∀ d ∈ name.toList[1]?, d.isLower) ∨
      c.isUpper ∧ ∃ d ∈ name.toList[1]?, ¬ d.isLower

theorem capitalize_eq {name : String} {c : Char} {cs : List Char} (h : name.toList = c :: cs)
    (hc : c.toNat < 128) : capitalize name = String.ofList (c.toUpper :: cs) := by
  unfold capitalize
  rw [h]
  show String.ofList (Text.upper c ++ cs) = _
  rw [Text.upper_ascii hc]
  rfl

theorem capitalize_ne_empty {name : String} (hne : name ≠ "")
    (h : ∀ c ∈ name.toList.take 2, c.toNat < 128) : capitalize name ≠ "" := by
  obtain ⟨c, cs, hcs⟩ := List.exists_cons_of_ne_nil (mt String.toList_eq_nil_iff.mp hne)
  rw [capitalize_eq hcs (h c (by simp [hcs])), Ne, String.ofList_eq]
  exact List.cons_ne_nil _ _

/-- A lone first character comes back in lower case. -/
theorem decapitalize_capitalize_singleton {name : String} {c : Char} (h : name.toList = [c])
    (hc : c.toNat < 128) : decapitalize (capitalize name) = String.ofList [c.toLower] := by
  rw [capitalize_eq h hc]
  unfold decapitalize
  rw [String.toList_ofList]
  show String.ofList (Text.lower c.toUpper) = _
  rw [Text.lower_ascii (Text.toNat_toUpper_lt hc), Text.toLower_toUpper hc]

/-- In front of a small letter the first character comes back in lower case, and else in upper
case. -/
theorem decapitalize_capitalize_cons {name : String} {c d : Char} {cs : List Char}
    (h : name.toList = c :: d :: cs) (hc : c.toNat < 128) (hd : d.toNat < 128) :
    decapitalize (capitalize name) =
      String.ofList ((if d.isLower then c.toLower else c.toUpper) :: d :: cs) := by
  rw [capitalize_eq h hc]
  unfold decapitalize
  rw [String.toList_ofList]
  show (if Text.isUpper c.toUpper && Text.isUpper d then _ else
    String.ofList (Text.lower c.toUpper ++ d :: cs)) = _
  rw [Text.isUpper_ascii (Text.toNat_toUpper_lt hc), Text.isUpper_ascii hd,
    Text.lower_ascii (Text.toNat_toUpper_lt hc), Text.toLower_toUpper hc, Text.isLower_toUpper hc]
  cases d.isLower <;> rfl

/-- The names that come back unchanged. -/
theorem decapitalize_capitalize_eq_iff {name : String} (hne : name ≠ "")
    (h : ∀ c ∈ name.toList.take 2, c.toNat < 128) :
    decapitalize (capitalize name) = name ↔ KeptByAccessors name := by
  unfold KeptByAccessors
  match hcs : name.toList with
  | [] => exact absurd (String.toList_eq_nil_iff.mp hcs) hne
  | [c] =>
    have hc : c.toNat < 128 := h c (by simp [hcs])
    rw [decapitalize_capitalize_singleton hcs hc, String.ofList_eq, hcs, List.cons.injEq,
      Text.toLower_eq_iff hc, Text.not_isUpper_iff hc]
    simp
  | c :: d :: cs =>
    have hc : c.toNat < 128 := h c (by simp [hcs])
    have hd : d.toNat < 128 := h d (by simp [hcs])
    rw [decapitalize_capitalize_cons hcs hc hd, String.ofList_eq, hcs, List.cons.injEq]
    cases hlower : d.isLower with
    | true =>
      rw [if_pos rfl, Text.toLower_eq_iff hc, Text.not_isUpper_iff hc]
      simp [hlower]
    | false =>
      rw [if_neg Bool.false_ne_true, Text.toUpper_eq_iff hc, Text.not_isLower_iff hc]
      simp [hlower]

end Name

/-! ## Types of one container -/

section Same

variable {c : Container}

mutual

theorem Ty.eq_of_same (s t : Ty) (h : s.same t = true) (hs : AllIn c s.containers)
    (ht : AllIn c t.containers) : t = s := by
  cases s with
  | primitive p =>
    cases t with
    | primitive q =>
      rw [Ty.same] at h
      rw [eq_of_beq h]
    | _ => exact absurd h (by simp [Ty.same])
  | named s =>
    cases t with
    | named t =>
      rw [Ty.same] at h
      rw [NamedType.eq_of_same s t h hs ht]
    | _ => exact absurd h (by simp [Ty.same])
  | array s m =>
    cases t with
    | array t n =>
      rw [Ty.same] at h
      obtain ⟨hcomponent, hdimension⟩ := Bool.and_eq_true_iff.mp h
      rw [Ty.eq_of_same s t hcomponent hs ht, eq_of_beq hdimension]
    | _ => exact absurd h (by simp [Ty.same])
termination_by structural s

theorem NamedType.eq_of_same (s t : NamedType) (h : s.same t = true) (hs : AllIn c s.containers)
    (ht : AllIn c t.containers) : t = s := by
  obtain ⟨hsc, hsq, hsargs⟩ := NamedType.allIn_iff.mp hs
  obtain ⟨htc, htq, htargs⟩ := NamedType.allIn_iff.mp ht
  obtain ⟨k, q, name, args⟩ := s
  obtain ⟨k', q', name', args'⟩ := t
  simp only at hsc htc
  cases q with
  | none =>
    cases q' with
    | none =>
      rw [NamedType.same] at h
      obtain ⟨hname, hargs⟩ := Bool.and_eq_true_iff.mp h
      rw [hsc, htc, eq_of_beq hname, TyArg.eq_of_sameList args args' hargs hsargs htargs]
    | some q' => exact absurd h (by simp [NamedType.same])
  | some q =>
    cases q' with
    | none => exact absurd h (by simp [NamedType.same])
    | some q' =>
      rw [NamedType.same] at h
      obtain ⟨hfront, hargs⟩ := Bool.and_eq_true_iff.mp h
      obtain ⟨hq, hname⟩ := Bool.and_eq_true_iff.mp hfront
      rw [hsc, htc, eq_of_beq hname, TyArg.eq_of_sameList args args' hargs hsargs htargs,
        NamedType.eq_of_same q q' hq (hsq q rfl) (htq q' rfl)]
termination_by structural s

theorem TyArg.eq_of_same (a b : TyArg) (h : a.same b = true) (ha : AllIn c a.containers)
    (hb : AllIn c b.containers) : b = a := by
  cases a with
  | type s =>
    cases b with
    | type t =>
      rw [TyArg.same] at h
      rw [Ty.eq_of_same s t h ha hb]
    | _ => exact absurd h (by simp [TyArg.same])
  | wildcard =>
    cases b with
    | wildcard => rfl
    | _ => exact absurd h (by simp [TyArg.same])
  | bounded kind s =>
    cases b with
    | bounded kind' t =>
      rw [TyArg.same] at h
      obtain ⟨hkind, hbound⟩ := Bool.and_eq_true_iff.mp h
      rw [eq_of_beq hkind, Ty.eq_of_same s t hbound ha hb]
    | _ => exact absurd h (by simp [TyArg.same])
termination_by structural a

theorem TyArg.eq_of_sameList (as bs : List TyArg) (h : TyArg.sameList as bs = true)
    (ha : AllIn c (TyArg.containersOfList as)) (hb : AllIn c (TyArg.containersOfList bs)) :
    bs = as := by
  cases as with
  | nil =>
    cases bs with
    | nil => rfl
    | cons b bs => exact absurd h (by simp [TyArg.sameList])
  | cons a as =>
    cases bs with
    | nil => exact absurd h (by simp [TyArg.sameList])
    | cons b bs =>
      rw [TyArg.sameList] at h
      obtain ⟨hhead, htail⟩ := Bool.and_eq_true_iff.mp h
      obtain ⟨haa, has⟩ := allIn_append.mp ha
      obtain ⟨hbb, hbs⟩ := allIn_append.mp hb
      rw [TyArg.eq_of_same a b hhead haa hbb, TyArg.eq_of_sameList as bs htail has hbs]
termination_by structural as

end

end Same

/-- In a loaded project, all members of a declaration are at home in it. -/
theorem Project.atHome_of_load {strict : Bool} {sources : List (List Event)} {p : Project}
    (hp : load strict sources = .ok p) {id : DeclId} {d : Declaration}
    (hd : p.decl? id = some d) : d.AtHome id.decl := by
  obtain ⟨units, hb, -, rfl⟩ := load_eq_ok_iff.mp hp
  obtain ⟨u, hu, hud⟩ := Option.bind_eq_some_iff.mp hd
  obtain ⟨events, -, hread⟩ := hb.exists_source hu
  exact SourceUnit.atHome_of_ofEvents hread hud

/-- So a field and a method of one declaration that are written with one type have one type. -/
theorem Declaration.AtHome.type_eq_of_same {d : Declaration} {k : Nat} (h : d.AtHome k) {f : Field}
    {g : Method} (hf : f ∈ d.fields) (hg : g ∈ d.methods) (hsame : g.returnType.same f.ty = true) :
    g.returnType = f.ty := by
  have hfield := (allIn_append.mp (allIn_append.mp (h.body.fields f hf)).1).2
  have hreturn := (allIn_append.mp (allIn_append.mp (h.methods g hg)).1).2
  exact (Ty.eq_of_same g.returnType f.ty hsame hreturn hfield).symm

/-! ## Verbs -/

section Verbs

variable {verb rest : String}

theorem afterVerb?_eq_some_iff {name : String} :
    afterVerb? verb name = some rest ↔ name = verb ++ rest ∧ rest ≠ "" := by
  rw [← String.toList_inj, String.toList_append, Ne, ← String.toList_eq_nil_iff]
  unfold afterVerb?
  simp only [Bool.and_eq_true, List.isPrefixOf_iff_prefix, decide_eq_true_eq]
  constructor
  · intro h
    split at h
    · next hcond =>
      obtain ⟨⟨cs, hcs⟩, hlt⟩ := hcond
      rw [← hcs, List.drop_left, Option.some.injEq, String.ofList_eq] at h
      subst h
      refine ⟨hcs.symm, fun hnil => ?_⟩
      rw [← hcs, hnil, List.append_nil] at hlt
      exact absurd hlt (lt_irrefl _)
    · cases h
  · rintro ⟨h, hne⟩
    have hpos := List.length_pos_of_ne_nil hne
    rw [h, List.length_append, if_pos ⟨List.prefix_append _ _, by omega⟩, List.drop_left,
      String.ofList_toList]

/-- A name that starts with another letter does not start with the verb. -/
theorem afterVerb?_eq_none {other : String} (hv : verb ≠ "") (ho : other ≠ "")
    (h : verb.toList.head? ≠ other.toList.head?) : afterVerb? verb (other ++ rest) = none := by
  refine Option.eq_none_iff_forall_ne_some.mpr fun found hfound => h ?_
  have heq := congrArg (·.toList.head?) (afterVerb?_eq_some_iff.mp hfound).1
  simp only [String.toList_append] at heq
  rwa [List.head?_append_of_ne_nil _ (mt String.toList_eq_nil_iff.mp ho),
    List.head?_append_of_ne_nil _ (mt String.toList_eq_nil_iff.mp hv), eq_comm] at heq

end Verbs

namespace Project

variable {p : Project} {id : DeclId} {d : Declaration} {x : Method} {i : Nat} {m : Memo}
  {rest : String}

theorem propertyName_of_get (h : x.name = "get" ++ rest) (hne : rest ≠ "") :
    (p.propertyName id i x m).1 = .ok (Name.decapitalize rest) := by
  unfold propertyName
  rw [h, afterVerb?_eq_some_iff.mpr ⟨rfl, hne⟩]
  rfl

theorem propertyName_of_set (h : x.name = "set" ++ rest) (hne : rest ≠ "") :
    (p.propertyName id i x m).1 = .ok (Name.decapitalize rest) := by
  unfold propertyName
  rw [h, afterVerb?_eq_none (by decide) (by decide) (by decide), afterVerb?_eq_some_iff.mpr ⟨rfl, hne⟩]
  rfl

theorem propertyName_of_is (h : x.name = "is" ++ rest) (hne : rest ≠ "")
    (hb : (p.returnsBoolean id i x m).1 = true) :
    (p.propertyName id i x m).1 = .ok (Name.decapitalize rest) := by
  unfold propertyName
  rw [h, afterVerb?_eq_none (by decide) (by decide) (by decide),
    afterVerb?_eq_none (by decide) (by decide) (by decide), afterVerb?_eq_some_iff.mpr ⟨rfl, hne⟩]
  show ((if (p.returnsBoolean id i x m).1 then _ else _ : QueryM _) _).1 = _
  rw [if_pos hb]
  rfl

theorem answer_getterName (p : Project) (id : DeclId) (i : Nat) (f : Field) (m : Memo) :
    (p.getterName id i f m).1 = if (p.isBoolean ⟨id, Slot.field i, []⟩ f.ty m).1
      then "is" ++ Name.capitalize f.name else "get" ++ Name.capitalize f.name := by
  show ((if (p.isBoolean ⟨id, Slot.field i, []⟩ f.ty m).1 then _ else _ : QueryM _) _).1 = _
  split <;> rfl

theorem answer_targetOfType_empty (p : Project) (site : TypeSite) (ty : NamedType) :
    (p.targetOfType site ty .empty).1 = p.resolveType site.decl.unit ty := by
  unfold targetOfType consult
  rw [Memo.get?_empty]
  cases p.resolveType site.decl.unit ty <;> rfl

/-- Of the place of a type only the unit counts. -/
theorem answer_isBoolean_empty {site site' : TypeSite} (h : site.decl.unit = site'.decl.unit)
    (ty : Ty) : (p.isBoolean site ty .empty).1 = (p.isBoolean site' ty .empty).1 := by
  cases ty with
  | primitive q => rfl
  | array component dimension => rfl
  | named ty =>
    show ((((p.targetOfType site ty .empty).1.map (·.canonicalName p)).toOption.bind
        Primitive.ofBoxed?) == some .boolean) =
      ((((p.targetOfType site' ty .empty).1.map (·.canonicalName p)).toOption.bind
        Primitive.ofBoxed?) == some .boolean)
    rw [answer_targetOfType_empty, answer_targetOfType_empty, h]

/-! ## Accessors of a field -/

/-- A method, which stands with its number, is named and typed as the getter of a field. -/
structure GetterFor (p : Project) (m : Memo) (id : DeclId) (d : Declaration) (i : Nat) (f : Field)
    (x : Method × Nat) : Prop where
  mem : x ∈ d.methods.zipIdx
  name : x.1.name = (p.getterName id i f m).1
  type : x.1.returnType.same f.ty = true

/-- A method, which stands with its number, is named as the setter of a field. -/
structure SetterFor (d : Declaration) (f : Field) (x : Method × Nat) : Prop where
  mem : x ∈ d.methods.zipIdx
  name : x.1.name = f.setterName

/-- The getter of a field returns a boolean exactly if the field is one. -/
theorem answer_returnsBoolean {n : Memo} {f : Field} {j : Nat} (hd : p.decl? id = some d)
    (hm : m.Faithful p) (hn : n.Faithful p) (hf : d.fields[i]? = some f)
    (hx : d.methods[j]? = some x) (hty : x.returnType = f.ty) :
    (p.returnsBoolean id j x n).1 = (p.isBoolean ⟨id, Slot.field i, []⟩ f.ty m).1 := by
  rw [(steady_returnsBoolean hd hx).answer n hn,
    (steady_isBoolean (typeAt?_field hd hf)).answer m hm]
  unfold returnsBoolean
  rw [hty]
  apply answer_isBoolean_empty
  rfl

/-- From the getter of a field comes the name that goes out and back in case. -/
theorem GetterFor.propertyName_eq {n : Memo} {f : Field} {y : Method × Nat} {k : Nat}
    (h : p.GetterFor m id d i f y) (hd : p.decl? id = some d) (hhome : d.AtHome k)
    (hm : m.Faithful p) (hn : n.Faithful p) (hf : d.fields[i]? = some f)
    (hne : Name.capitalize f.name ≠ "") :
    (p.propertyName id y.2 y.1 n).1 = .ok (Name.decapitalize (Name.capitalize f.name)) := by
  have hy : d.methods[y.2]? = some y.1 := List.mem_zipIdx_iff_getElem?.mp h.mem
  have hty : y.1.returnType = f.ty :=
    hhome.type_eq_of_same (List.mem_of_getElem? hf) (List.mem_of_getElem? hy) h.type
  have hbool := answer_returnsBoolean hd hm hn hf hy hty
  have hname := h.name
  rw [answer_getterName, ← hbool] at hname
  split at hname
  · next hb => exact propertyName_of_is hname hne hb
  · exact propertyName_of_get hname hne

/-- The getter and the setter that are named after a field lead to one name. It is the name of the
field exactly for the names that accessors keep; for the others, the accessors belong to another
property than the field. -/
theorem accessors_lead_back_to_field {strict : Bool} {sources : List (List Event)} {f : Field}
    (hp : load strict sources = .ok p) (hd : p.decl? id = some d) (history later : List Query)
    (hf : d.fields[i]? = some f) (hne : f.name ≠ "")
    (hascii : ∀ c ∈ f.name.toList.take 2, c.toNat < 128) :
    let asked := Query.remembered p later
    let getterFor := p.GetterFor (Query.remembered p history) id d i f
    ∃ name, (name = f.name ↔ Name.KeptByAccessors f.name) ∧
      (∀ x, getterFor x → (p.propertyName id x.2 x.1 asked).1 = .ok name) ∧
      (∀ x, SetterFor d f x → (p.propertyName id x.2 x.1 asked).1 = .ok name) ∧
      (name ≠ f.name → ∀ qs, (p.properties id d asked).1 = .ok qs →
        (∀ x, getterFor x → (p.isGetter id d x.2 x.1 asked).1 = true →
          ∃ q ∈ qs, q.field ≠ some f ∧ ∀ r ∈ qs,
            x ∈ Property.accessors (p.gets? asked id d) d.methods.zipIdx r.name ↔ r = q) ∧
        ∀ x, SetterFor d f x → d.isSetter x.1 = true →
          ∃ q ∈ qs, q.field ≠ some f ∧ ∀ r ∈ qs,
            x ∈ Property.accessors (p.sets? asked id d) d.methods.zipIdx r.name ↔ r = q) := by
  intro asked getterFor
  have hm := Query.faithful_remembered p history
  have ha := Query.faithful_remembered p later
  have hcap := Name.capitalize_ne_empty hne hascii
  have hgetter : ∀ x, getterFor x → (p.propertyName id x.2 x.1 asked).1 =
      .ok (Name.decapitalize (Name.capitalize f.name)) :=
    fun x hx => hx.propertyName_eq hd (atHome_of_load hp hd) hm ha hf hcap
  have hsetter : ∀ x, SetterFor d f x → (p.propertyName id x.2 x.1 asked).1 =
      .ok (Name.decapitalize (Name.capitalize f.name)) :=
    fun x hx => propertyName_of_set hx.name hcap
  refine ⟨_, Name.decapitalize_capitalize_eq_iff hne hascii, hgetter, hsetter, ?_⟩
  intro hother qs hqs
  have hderives := derives_of_properties hd ha ha hqs
  have hfield : ∀ q ∈ qs, q.name = Name.decapitalize (Name.capitalize f.name) →
      q.field ≠ some f := by
    intro q hq hname hsome
    rw [(hderives.parts q hq).field] at hsome
    have hsame := List.find?_some hsome
    exact hother (hname.symm.trans (eq_of_beq hsame).symm)
  constructor
  · intro x hx hshape
    obtain ⟨q, hq, hname, honly⟩ := hderives.getters x hx.mem hshape
    exact ⟨q, hq, hfield q hq (Except.ok.inj (hname.symm.trans (hgetter x hx))), honly⟩
  · intro x hx hshape
    obtain ⟨q, hq, hname, honly⟩ := hderives.setters x hx.mem hshape
    exact ⟨q, hq, hfield q hq (Except.ok.inj (hname.symm.trans (hsetter x hx))), honly⟩

/-- The accessors of a boolean field `aB` both lead to the same other name. -/
theorem accessors_of_mixed_case :
    ∃ p d f g s name, load true [[.enterType .classType "C",
        .field (.ofName "boolean") [⟨"aB", 0, none⟩],
        .modifier "public", .enterMethod "isAB" (.ofName "boolean"), .exitMember,
        .modifier "public", .enterMethod "setAB" (.ofName "void"),
        .parameter "x" (.ofName "boolean") false, .exitMember, .exitType]] = .ok p ∧
      p.decl? ⟨0, 0⟩ = some d ∧ d.fields = [f] ∧ d.methods = [g, s] ∧ f.name = "aB" ∧
      name ≠ "aB" ∧ (p.propertyName ⟨0, 0⟩ 0 g .empty).1 = .ok name ∧
      (p.propertyName ⟨0, 0⟩ 1 s .empty).1 = .ok name := by
  obtain ⟨p, d, f, g, s, hp, hd, hf, hms, hname, hgetter, hsame, hsetter⟩ :
      ∃ p d f g s, load true [[.enterType .classType "C",
        .field (.ofName "boolean") [⟨"aB", 0, none⟩],
        .modifier "public", .enterMethod "isAB" (.ofName "boolean"), .exitMember,
        .modifier "public", .enterMethod "setAB" (.ofName "void"),
        .parameter "x" (.ofName "boolean") false, .exitMember, .exitType]] = .ok p ∧
      p.decl? ⟨0, 0⟩ = some d ∧ d.fields = [f] ∧ d.methods = [g, s] ∧ f.name = "aB" ∧
      g.name = (p.getterName ⟨0, 0⟩ 0 f .empty).1 ∧ g.returnType.same f.ty = true ∧
      s.name = f.setterName :=
    ⟨_, _, _, _, _, load_of_built (.cons (by rfl) .nil) (by decide +kernel), by rfl, by rfl, by rfl,
      by rfl, by decide +kernel, by decide +kernel, by decide +kernel⟩
  obtain ⟨name, hkept, hget, hset, -⟩ :=
    accessors_lead_back_to_field (i := 0) hp hd [] [] (by rw [hf]; rfl) (by rw [hname]; decide)
      (by simp [hname])
  refine ⟨p, d, f, g, s, name, hp, hd, hf, hms, hname, ?_, hget (g, 0) ⟨?_, hgetter, hsame⟩,
    hset (s, 1) ⟨?_, hsetter⟩⟩
  · intro heq
    have hkept := hkept.mp (heq.trans hname.symm)
    rw [hname] at hkept
    exact absurd hkept (by simp [Name.KeptByAccessors])
  · rw [hms]
    exact List.mem_cons_self
  · rw [hms]
    exact List.mem_cons_of_mem _ List.mem_cons_self

end Project

end SourceModel
