import SourceModel.Dump
import SourceModel.Proofs.Containers
import SourceModel.Proofs.Documents
import SourceModel.Proofs.FloatTexts

/-!
# Dumps of types, values and members

A part of a declaration is told by its dump, although the dump leaves out containers: they are all
the same in it (`AllIn`). Of two parts with the same container and the same dump the second is the
first, provided that the doubles in it are finite.

Every lemma here has the two parts in the same order: the one that is known to be finite, and the
one that is shown to equal it.
-/

namespace SourceModel

/-! ## Words and numbers -/

theorem Primitive.keyword_inj {p q : Primitive} (h : p.keyword = q.keyword) : p = q := by
  have hall : ∀ p ∈ all, ∀ q ∈ all, p.keyword = q.keyword → p = q := by decide
  exact hall p p.mem_all q q.mem_all h

theorem Modifier.keyword_inj {m n : Modifier} (h : m.keyword = n.keyword) : m = n := by
  have hall : ∀ m ∈ all, ∀ n ∈ all, m.keyword = n.keyword → m = n := by decide
  exact hall m m.mem_all n n.mem_all h

theorem BoundKind.keyword_inj {j k : BoundKind} (h : j.keyword = k.keyword) : j = k := by
  cases j <;> cases k <;> first | rfl | exact absurd h (by decide)

theorem ImportKind.keyword_inj {j k : ImportKind} (h : j.keyword = k.keyword) : j = k := by
  cases j <;> cases k <;> first | rfl | exact absurd h (by decide)

theorem Kind.dumpName_inj {j k : Kind} (h : j.dumpName = k.dumpName) : j = k := by
  cases j <;> cases k <;> first | rfl | exact absurd h (by decide)

theorem Binary64.eq_of_dump {x y : Binary64} (h : x.dump.Same y.dump) (hx : x.isFinite) :
    y = x := by
  unfold Binary64.dump at h
  rw [if_pos hx] at h
  split at h
  · exact FloatStyle.finiteText_inj h.number_eq
  · cases h

theorem Literal.eq_of_dump {l m : Literal} (h : l.dump.Same m.dump)
    (hf : ∀ x, l = .float x → x.isFinite) : m = l := by
  cases l with
  | string s =>
    cases m with
    | string t => rw [h.tagged.2.string_eq]
    | null => cases h
    | _ => exact absurd h.tagged.1 (by decide)
  | char a =>
    cases m with
    | char b =>
      have hlist := String.ofList_inj.mp h.tagged.2.string_eq
      rw [List.singleton_inj.mp hlist]
    | null => cases h
    | _ => exact absurd h.tagged.1 (by decide)
  | int a =>
    cases m with
    | int b =>
      have htext : toString b.toInt = toString a.toInt := h.tagged.2.number_eq
      rw [Int64.toInt_inj.mp (Decimal.repr_inj htext)]
    | null => cases h
    | _ => exact absurd h.tagged.1 (by decide)
  | float x =>
    cases m with
    | float y => rw [Binary64.eq_of_dump h.tagged.2 (hf x rfl)]
    | null => cases h
    | _ => exact absurd h.tagged.1 (by decide)
  | bool a =>
    cases m with
    | bool b => rw [h.tagged.2.bool_eq]
    | null => cases h
    | _ => exact absurd h.tagged.1 (by decide)
  | null =>
    cases m with
    | null => rfl
    | _ => cases h

/-! ## Types -/

namespace NamedType

theorem field?_name (t : NamedType) : t.dump.field? "name" = some (.string t.name) := by
  obtain ⟨k, q, name, args⟩ := t
  cases q <;> rfl

theorem field?_qualifier (t : NamedType) :
    t.dump.field? "qualifier" = t.qualifier.map (·.dump) := by
  obtain ⟨k, q, name, args⟩ := t
  cases q with
  | none => exact Document.lookup_nonempty_of_ne (by decide) _
  | some q => rfl

theorem field?_arguments (t : NamedType) :
    t.dump.field? "arguments" = Document.nonempty? (TyArg.dumpList t.args) := by
  obtain ⟨k, q, name, args⟩ := t
  cases q <;> exact Document.lookup_nonempty _ _

end NamedType

section

variable {c : Container}

theorem NamedType.allIn_iff {t : NamedType} : AllIn c t.containers ↔
    t.container = c ∧ (∀ q, t.qualifier = some q → AllIn c q.containers) ∧
      AllIn c (TyArg.containersOfList t.args) := by
  obtain ⟨k, q, name, args⟩ := t
  cases q <;> simp [NamedType.containers, AllIn, or_imp, forall_and]

mutual

theorem Ty.eq_of_dump (s t : Ty) (h : s.dump.Same t.dump) (hs : AllIn c s.containers)
    (ht : AllIn c t.containers) : t = s := by
  cases s with
  | primitive p =>
    cases t with
    | primitive q => rw [Primitive.keyword_inj h.tagged.2.string_eq]
    | _ => exact absurd h.tagged.1 (by decide)
  | named s =>
    cases t with
    | named t => rw [NamedType.eq_of_dump s t h.tagged.2 hs ht]
    | _ => exact absurd h.tagged.1 (by decide)
  | array s m =>
    cases t with
    | array t n =>
      have hcomponent := h.tagged.2.field "component" rfl rfl
      have hdimension := (h.tagged.2.field "dimension" rfl rfl).number_eq
      have hn : n = m := Int.ofNat_inj.mp (Decimal.repr_inj hdimension)
      rw [Ty.eq_of_dump s t hcomponent hs ht, hn]
    | _ => exact absurd h.tagged.1 (by decide)
termination_by structural s

theorem NamedType.eq_of_dump (s t : NamedType) (h : s.dump.Same t.dump)
    (hs : AllIn c s.containers) (ht : AllIn c t.containers) : t = s := by
  have hname := (h.field "name" s.field?_name t.field?_name).string_eq
  have hqualifier := h.field? "qualifier"
  have hargs := h.field? "arguments"
  rw [s.field?_qualifier, t.field?_qualifier] at hqualifier
  rw [s.field?_arguments, t.field?_arguments] at hargs
  obtain ⟨hsc, hsq, hsargs⟩ := NamedType.allIn_iff.mp hs
  obtain ⟨htc, htq, htargs⟩ := NamedType.allIn_iff.mp ht
  obtain ⟨k, q, name, args⟩ := s
  obtain ⟨k', q', name', args'⟩ := t
  have hargs' := TyArg.eq_of_dumpList args args' (Document.items_of_nonempty? hargs) hsargs htargs
  have hq : q' = q := by
    cases q with
    | none =>
      cases q' with
      | none => rfl
      | some q' => cases hqualifier
    | some q =>
      cases q' with
      | none => cases hqualifier
      | some q' =>
        cases hqualifier with
        | some hsame => rw [NamedType.eq_of_dump q q' hsame (hsq q rfl) (htq q' rfl)]
  simp only at hsc htc hname
  rw [hsc, htc, hq, hname, hargs']
termination_by structural s

theorem TyArg.eq_of_dump (a b : TyArg) (h : a.dump.Same b.dump) (ha : AllIn c a.containers)
    (hb : AllIn c b.containers) : b = a := by
  cases a with
  | type s =>
    cases b with
    | type t => rw [Ty.eq_of_dump s t h.tagged.2 ha hb]
    | _ => exact absurd h.tagged.1 (by decide)
  | wildcard =>
    cases b with
    | wildcard => rfl
    | type t => exact absurd h.tagged.1 (by decide)
    | bounded kind t => cases h.tagged.2.field? "bound"
  | bounded kind s =>
    cases b with
    | type t => exact absurd h.tagged.1 (by decide)
    | wildcard => cases h.tagged.2.field? "bound"
    | bounded kind' t =>
      have hbound := h.tagged.2.tagged.2
      have hkind := hbound.field "kind" rfl rfl
      have hty := hbound.field "ty" rfl rfl
      rw [BoundKind.keyword_inj hkind.string_eq, Ty.eq_of_dump s t hty ha hb]
termination_by structural a

theorem TyArg.eq_of_dumpList (as bs : List TyArg)
    (h : List.Forall₂ Document.Same (TyArg.dumpList as) (TyArg.dumpList bs))
    (ha : AllIn c (TyArg.containersOfList as)) (hb : AllIn c (TyArg.containersOfList bs)) :
    bs = as := by
  cases as with
  | nil =>
    cases bs with
    | nil => rfl
    | cons b bs => cases h
  | cons a as =>
    cases bs with
    | nil => cases h
    | cons b bs =>
      obtain ⟨haa, has⟩ := allIn_append.mp ha
      obtain ⟨hbb, hbs⟩ := allIn_append.mp hb
      cases h with
      | cons hab hrest =>
        rw [TyArg.eq_of_dump a b hab haa hbb, TyArg.eq_of_dumpList as bs hrest has hbs]
termination_by structural as

end

/-! ## Values -/

/-- Every double in the value is finite. -/
def Expr.IsFinite (e : Expr) : Prop :=
  ∀ path x, e.at? path = some (.literal (.float x)) → x.isFinite

def AnnotationUse.IsFinite (a : AnnotationUse) : Prop :=
  ∀ v ∈ a.values, v.value.IsFinite

theorem Expr.IsFinite.part {e part : Expr} {i : Nat} (h : e.IsFinite) (hi : e.part? i = some part) :
    part.IsFinite := by
  intro path x hx
  refine h (i :: path) x ?_
  rw [Expr.at?, hi]
  exact hx

theorem Expr.IsFinite.items {items : List Expr} (h : (Expr.list items).IsFinite) :
    ∀ e ∈ items, e.IsFinite := by
  intro e he
  obtain ⟨i, hi⟩ := List.mem_iff_getElem?.mp he
  exact h.part hi

theorem Expr.IsFinite.args {target : Ty} {args : List Expr}
    (h : (Expr.creation target args).IsFinite) : ∀ e ∈ args, e.IsFinite := by
  intro e he
  obtain ⟨i, hi⟩ := List.mem_iff_getElem?.mp he
  exact h.part hi

theorem Expr.IsFinite.use {use : AnnotationUse} (h : (Expr.annotationUse use).IsFinite) :
    use.IsFinite := by
  intro v hv
  obtain ⟨i, hi⟩ := List.mem_iff_getElem?.mp hv
  refine h.part (i := i) ?_
  rw [Expr.part?, hi]
  rfl

mutual

theorem Expr.eq_of_dump (a b : Expr) (h : a.dump.Same b.dump) (ha : AllIn c a.containers)
    (hb : AllIn c b.containers) (hf : a.IsFinite) : b = a := by
  cases a with
  | list items =>
    cases b with
    | list items' =>
      have hitems : List.Forall₂ Document.Same (Expr.dumpList items) (Expr.dumpList items') :=
        h.tagged.2.items
      rw [Expr.eq_of_dumpList items items' hitems ha hb hf.items]
    | _ => exact absurd h.tagged.1 (by decide)
  | annotationUse use =>
    cases b with
    | annotationUse use' => rw [AnnotationUse.eq_of_dump use use' h.tagged.2 ha hb hf.use]
    | _ => exact absurd h.tagged.1 (by decide)
  | literal l =>
    cases b with
    | literal m =>
      have hl : ∀ x, l = .float x → x.isFinite := by
        rintro x rfl
        exact hf [] x rfl
      rw [Literal.eq_of_dump h.tagged.2 hl]
    | _ => exact absurd h.tagged.1 (by decide)
  | creation target args =>
    cases b with
    | creation target' args' =>
      obtain ⟨hatarget, haargs⟩ := allIn_append.mp ha
      obtain ⟨hbtarget, hbargs⟩ := allIn_append.mp hb
      have htarget := h.tagged.2.field "target" rfl rfl
      have hargs := h.tagged.2.field "arguments" rfl rfl
      rw [Ty.eq_of_dump target target' htarget hatarget hbtarget,
        Expr.eq_of_dumpList args args' hargs.items haargs hbargs hf.args]
    | _ => exact absurd h.tagged.1 (by decide)
  | name text =>
    cases b with
    | name text' => rw [h.tagged.2.string_eq]
    | _ => exact absurd h.tagged.1 (by decide)
  | token text =>
    cases b with
    | token text' => rw [h.tagged.2.string_eq]
    | _ => exact absurd h.tagged.1 (by decide)
  | unknown code =>
    cases b with
    | unknown code' => rw [h.tagged.2.string_eq]
    | _ => exact absurd h.tagged.1 (by decide)
termination_by structural a

theorem Expr.eq_of_dumpList (as bs : List Expr)
    (h : List.Forall₂ Document.Same (Expr.dumpList as) (Expr.dumpList bs))
    (ha : AllIn c (Expr.containersOfList as)) (hb : AllIn c (Expr.containersOfList bs))
    (hf : ∀ e ∈ as, e.IsFinite) : bs = as := by
  cases as with
  | nil =>
    cases bs with
    | nil => rfl
    | cons b bs => cases h
  | cons a as =>
    cases bs with
    | nil => cases h
    | cons b bs =>
      obtain ⟨haa, has⟩ := allIn_append.mp ha
      obtain ⟨hbb, hbs⟩ := allIn_append.mp hb
      cases h with
      | cons hab hrest =>
        rw [Expr.eq_of_dump a b hab haa hbb (hf a (.head _)),
          Expr.eq_of_dumpList as bs hrest has hbs fun e he => hf e (.tail _ he)]
termination_by structural as

theorem AnnotationUse.eq_of_dump (a b : AnnotationUse) (h : a.dump.Same b.dump)
    (ha : AllIn c a.containers) (hb : AllIn c b.containers) (hf : a.IsFinite) : b = a := by
  obtain ⟨k, name, values⟩ := a
  obtain ⟨k', name', values'⟩ := b
  have hname := h.field "name" rfl rfl
  have hvalues := h.field "values" rfl rfl
  rw [ha k (.head _), hb k' (.head _), hname.string_eq,
    AnnotationValue.eq_of_dumpList values values' hvalues.items
      (fun k hk => ha k (.tail _ hk)) (fun k hk => hb k (.tail _ hk)) hf]
termination_by structural a

theorem AnnotationValue.eq_of_dumpList (vs ws : List AnnotationValue)
    (h : List.Forall₂ Document.Same (AnnotationValue.dumpList vs) (AnnotationValue.dumpList ws))
    (hv : AllIn c (AnnotationValue.containersOfList vs))
    (hw : AllIn c (AnnotationValue.containersOfList ws)) (hf : ∀ v ∈ vs, v.value.IsFinite) :
    ws = vs := by
  cases vs with
  | nil =>
    cases ws with
    | nil => rfl
    | cons w ws => cases h
  | cons v vs =>
    cases ws with
    | nil => cases h
    | cons w ws =>
      obtain ⟨name, value⟩ := v
      obtain ⟨name', value'⟩ := w
      obtain ⟨hvv, hvs⟩ := allIn_append.mp hv
      obtain ⟨hww, hws⟩ := allIn_append.mp hw
      cases h with
      | cons hvw hrest =>
        have hname := hvw.field "name" rfl rfl
        have hvalue := hvw.field "value" rfl rfl
        rw [hname.string_eq, Expr.eq_of_dump value value' hvalue hvv hww (hf _ (.head _)),
          AnnotationValue.eq_of_dumpList vs ws hrest hvs hws fun v hv => hf v (.tail _ hv)]
termination_by structural vs

end

/-! ## Members -/

theorem Modifier.eq_of_dumps {ms ns : List Modifier}
    (h : (Document.array (ms.map (·.dump))).Same (.array (ns.map (·.dump)))) : ns = ms :=
  Document.eq_of_forall₂_dump h.items fun _ _ _ _ hmn => Modifier.keyword_inj hmn.string_eq

theorem AnnotationUse.eq_of_dumps {as bs : List AnnotationUse}
    (h : List.Forall₂ Document.Same (as.map (·.dump)) (bs.map (·.dump)))
    (ha : AllIn c (containersOfList as)) (hb : AllIn c (containersOfList bs))
    (hf : ∀ a ∈ as, a.IsFinite) : bs = as :=
  Document.eq_of_forall₂_dump h fun a hma b hmb hab =>
    AnnotationUse.eq_of_dump a b hab (allIn_flatMap.mp ha a hma) (allIn_flatMap.mp hb b hmb)
      (hf a hma)

theorem NamedType.eq_of_dumps {ss ts : List NamedType}
    (h : (Document.array (ss.map (·.dump))).Same (.array (ts.map (·.dump))))
    (hs : ∀ s ∈ ss, AllIn c s.containers) (ht : ∀ t ∈ ts, AllIn c t.containers) : ts = ss :=
  Document.eq_of_forall₂_dump h.items fun s hms t hmt hst =>
    NamedType.eq_of_dump s t hst (hs s hms) (ht t hmt)

theorem TypeParam.field?_annotations (p : TypeParam) :
    p.dump.field? "annotations" = Document.nonempty? (p.annotations.map (·.dump)) := by
  obtain ⟨name, annotations, bounds⟩ := p
  cases annotations <;> rfl

theorem TypeParam.field?_bounds (p : TypeParam) :
    p.dump.field? "bounds" = some (.array (p.bounds.map (·.dump))) := by
  obtain ⟨name, annotations, bounds⟩ := p
  cases annotations <;> rfl

theorem TypeParam.eq_of_dump {p q : TypeParam} (h : p.dump.Same q.dump)
    (hp : AllIn c p.containers) (hq : AllIn c q.containers)
    (hf : ∀ a ∈ p.annotations, a.IsFinite) : q = p := by
  obtain ⟨hpa, hpb⟩ := allIn_append.mp hp
  obtain ⟨hqa, hqb⟩ := allIn_append.mp hq
  have hname := (h.field "name" rfl rfl).string_eq
  have hannotations : q.annotations = p.annotations := by
    have hrel := h.field? "annotations"
    rw [p.field?_annotations, q.field?_annotations] at hrel
    exact AnnotationUse.eq_of_dumps (Document.items_of_nonempty? hrel) hpa hqa hf
  have hbounds := NamedType.eq_of_dumps (h.field "bounds" p.field?_bounds q.field?_bounds)
    (allIn_flatMap.mp hpb) (allIn_flatMap.mp hqb)
  show TypeParam.mk q.name q.annotations q.bounds = p
  rw [hname, hannotations, hbounds]

theorem Parameter.eq_of_dump {p q : Parameter} (h : p.dump.Same q.dump)
    (hp : AllIn c p.containers) (hq : AllIn c q.containers)
    (hf : ∀ a ∈ p.annotations, a.IsFinite) : q = p := by
  obtain ⟨hpa, hpt⟩ := allIn_append.mp hp
  obtain ⟨hqa, hqt⟩ := allIn_append.mp hq
  have hname := (h.field "name" rfl rfl).string_eq
  have hmodifiers := Modifier.eq_of_dumps (h.field "modifiers" rfl rfl)
  have hannotations := AnnotationUse.eq_of_dumps (h.field "annotations" rfl rfl).items hpa hqa hf
  have hty := Ty.eq_of_dump p.ty q.ty (h.field "ty" rfl rfl) hpt hqt
  have hvarargs := (h.field "varargs" rfl rfl).bool_eq
  show Parameter.mk q.name q.modifiers q.annotations q.ty q.varargs = p
  rw [hname, hmodifiers, hannotations, hty, hvarargs]

theorem Parameter.eq_of_dumps {ps qs : List Parameter}
    (h : (Document.array (ps.map (·.dump))).Same (.array (qs.map (·.dump))))
    (hp : AllIn c (ps.flatMap (·.containers))) (hq : AllIn c (qs.flatMap (·.containers)))
    (hf : ∀ p ∈ ps, ∀ a ∈ p.annotations, a.IsFinite) : qs = ps :=
  Document.eq_of_forall₂_dump h.items fun p hmp q hmq hpq =>
    Parameter.eq_of_dump hpq (allIn_flatMap.mp hp p hmp) (allIn_flatMap.mp hq q hmq) (hf p hmp)

theorem Method.eq_of_dump {m n : Method} (h : m.dump.Same n.dump) (hm : AllIn c m.containers)
    (hn : AllIn c n.containers) (hf : ∀ a ∈ m.annotations, a.IsFinite)
    (hparams : ∀ p ∈ m.params, ∀ a ∈ p.annotations, a.IsFinite) : n = m := by
  obtain ⟨hm, hmp⟩ := allIn_append.mp hm
  obtain ⟨hma, hmt⟩ := allIn_append.mp hm
  obtain ⟨hn, hnp⟩ := allIn_append.mp hn
  obtain ⟨hna, hnt⟩ := allIn_append.mp hn
  have hname := (h.field "name" rfl rfl).string_eq
  have hmodifiers := Modifier.eq_of_dumps (h.field "modifiers" rfl rfl)
  have hannotations := AnnotationUse.eq_of_dumps (h.field "annotations" rfl rfl).items hma hna hf
  have hty := Ty.eq_of_dump m.returnType n.returnType (h.field "return_type" rfl rfl) hmt hnt
  have hps := Parameter.eq_of_dumps (h.field "parameters" rfl rfl) hmp hnp hparams
  show Method.mk n.name n.modifiers n.annotations n.returnType n.params = m
  rw [hname, hmodifiers, hannotations, hty, hps]

theorem Constructor.eq_of_dump {k l : Constructor} (h : k.dump.Same l.dump)
    (hk : AllIn c k.containers) (hl : AllIn c l.containers)
    (hf : ∀ a ∈ k.annotations, a.IsFinite)
    (hparams : ∀ p ∈ k.params, ∀ a ∈ p.annotations, a.IsFinite) : l = k := by
  obtain ⟨hka, hkp⟩ := allIn_append.mp hk
  obtain ⟨hla, hlp⟩ := allIn_append.mp hl
  have hmodifiers := Modifier.eq_of_dumps (h.field "modifiers" rfl rfl)
  have hannotations := AnnotationUse.eq_of_dumps (h.field "annotations" rfl rfl).items hka hla hf
  have hps := Parameter.eq_of_dumps (h.field "parameters" rfl rfl) hkp hlp hparams
  show Constructor.mk l.modifiers l.annotations l.params = k
  rw [hmodifiers, hannotations, hps]

theorem Field.field?_initializer (f : Field) :
    f.dump.field? "initializer" = f.initializer.map (·.dump) := by
  obtain ⟨name, modifiers, annotations, ty, initializer⟩ := f
  cases initializer <;> rfl

theorem Field.eq_of_dump {f g : Field} (h : f.dump.Same g.dump) (hf : AllIn c f.containers)
    (hg : AllIn c g.containers) (hannot : ∀ a ∈ f.annotations, a.IsFinite)
    (hinit : ∀ e, f.initializer = some e → e.IsFinite) : g = f := by
  obtain ⟨hf, hfi⟩ := allIn_append.mp hf
  obtain ⟨hfa, hft⟩ := allIn_append.mp hf
  obtain ⟨hg, hgi⟩ := allIn_append.mp hg
  obtain ⟨hga, hgt⟩ := allIn_append.mp hg
  have hname := (h.field "name" rfl rfl).string_eq
  have hmodifiers := Modifier.eq_of_dumps (h.field "modifiers" rfl rfl)
  have hannotations :=
    AnnotationUse.eq_of_dumps (h.field "annotations" rfl rfl).items hfa hga hannot
  have hty := Ty.eq_of_dump f.ty g.ty (h.field "ty" rfl rfl) hft hgt
  have hinitializer : g.initializer = f.initializer := by
    have hrel := h.field? "initializer"
    rw [f.field?_initializer, g.field?_initializer] at hrel
    refine Document.eq_of_rel_map_dump hrel fun a ha b hb hab => ?_
    rw [ha] at hfi
    rw [hb] at hgi
    exact Expr.eq_of_dump a b hab (allIn_flatMap.mp hfi a (.head _))
      (allIn_flatMap.mp hgi b (.head _)) (hinit a ha)
  show Field.mk g.name g.modifiers g.annotations g.ty g.initializer = f
  rw [hname, hmodifiers, hannotations, hty, hinitializer]

theorem EnumConstant.eq_of_dump {k l : EnumConstant} (h : k.dump.Same l.dump)
    (hk : AllIn c k.containers) (hl : AllIn c l.containers)
    (hf : ∀ a ∈ k.annotations, a.IsFinite) : l = k := by
  have hname := (h.field "name" rfl rfl).string_eq
  have hannotations := AnnotationUse.eq_of_dumps (h.field "annotations" rfl rfl).items hk hl hf
  show EnumConstant.mk l.name l.annotations = k
  rw [hname, hannotations]

end

end SourceModel
