import SourceModel.Proofs.InRange

/-!
# Displays under other names

A type may be displayed with other names for the named types in it (`Ty.displayWith`): every type
argument is kept and stands behind its segment. Under the names as they are written this is the
display (`Ty.displayWith_dottedName`). A shorter text has the arguments of last segments only
(`Ty.shortWith`). The two are the same for just those types in which no qualifier has arguments
(`Ty.shortWith_eq_displayWith_iff`).
-/

namespace SourceModel

/-! ## The end of a name -/

namespace Name

/-- What stands before the last dot. -/
def front (name : String) : String :=
  (splitLast name).1.getD ""

/-- The last segment, with the dot before it if there is one. -/
def ending (name : String) : String :=
  match splitLast name with
  | (some _, last) => "." ++ last
  | (none, last) => last

theorem front_append_ending (name : String) : front name ++ ending name = name := by
  unfold front ending
  rcases splitLast_cases name with ⟨hsplit, -⟩ | ⟨q, s, hsplit, hsegments⟩
  · rw [hsplit]
    exact String.empty_append
  · have hname : q ++ "." ++ s = name := by
      rw [← join_segments_concat, ← hsegments, join_segments]
    rw [hsplit, ← hname]
    exact String.append_assoc.symm

end Name

/-! ## Texts of types -/

mutual

/-- The type as it is displayed, with each named type under the name that it is given. -/
def Ty.displayWith (names : NamedType → String) : Ty → String
  | .primitive p => p.keyword
  | .named ty => ty.displayAs names (names ty)
  | .array component dimension => component.displayWith names ++ brackets dimension

/-- A named type under the given name. The arguments of a segment stand behind the segment of the
name that comes as far from the end, since the name may have more segments in front. -/
def NamedType.displayAs (names : NamedType → String) (name : String) : NamedType → String
  | ⟨_, none, _, args⟩ => name ++ angleBrackets (TyArg.displayListWith names args)
  | ⟨_, some q, _, args⟩ =>
    q.displayAs names (Name.front name) ++ Name.ending name ++
      angleBrackets (TyArg.displayListWith names args)

def TyArg.displayWith (names : NamedType → String) : TyArg → String
  | .type ty => ty.displayWith names
  | .wildcard => "?"
  | .bounded kind bound => "? " ++ kind.keyword ++ " " ++ bound.displayWith names

def TyArg.displayListWith (names : NamedType → String) : List TyArg → List String
  | [] => []
  | a :: as => a.displayWith names :: TyArg.displayListWith names as

end

mutual

/-- The type with the arguments of the last segments only. -/
def Ty.shortWith (names : NamedType → String) : Ty → String
  | .primitive p => p.keyword
  | .named ty => ty.shortWith names
  | .array component dimension => component.shortWith names ++ brackets dimension

def NamedType.shortWith (names : NamedType → String) : NamedType → String
  | ⟨container, qualifier, name, args⟩ =>
    names ⟨container, qualifier, name, args⟩ ++ angleBrackets (TyArg.shortListWith names args)

def TyArg.shortWith (names : NamedType → String) : TyArg → String
  | .type ty => ty.shortWith names
  | .wildcard => "?"
  | .bounded kind bound => "? " ++ kind.keyword ++ " " ++ bound.shortWith names

def TyArg.shortListWith (names : NamedType → String) : List TyArg → List String
  | [] => []
  | a :: as => a.shortWith names :: TyArg.shortListWith names as

end

mutual

/-- No segment has a dot in its own name. -/
def Ty.dotless : Ty → Bool
  | .primitive _ => true
  | .named ty => ty.dotless
  | .array component _ => component.dotless

def NamedType.dotless : NamedType → Bool
  | ⟨_, none, name, args⟩ => !name.toList.contains '.' && TyArg.dotlessList args
  | ⟨_, some q, name, args⟩ =>
    q.dotless && (!name.toList.contains '.' && TyArg.dotlessList args)

def TyArg.dotless : TyArg → Bool
  | .type ty => ty.dotless
  | .wildcard => true
  | .bounded _ bound => bound.dotless

def TyArg.dotlessList : List TyArg → Bool
  | [] => true
  | a :: as => a.dotless && TyArg.dotlessList as

end

mutual

/-- Under the names as they are written, the text is the display. -/
theorem Ty.displayWith_dottedName (t : Ty) (h : t.dotless = true) :
    t.displayWith NamedType.dottedName = t.display := by
  match t with
  | .primitive p => rw [Ty.displayWith, Ty.display]
  | .named ty =>
    rw [Ty.dotless] at h
    rw [Ty.displayWith, Ty.display, NamedType.displayAs_dottedName ty h]
  | .array component dimension =>
    rw [Ty.dotless] at h
    rw [Ty.displayWith, Ty.display, Ty.displayWith_dottedName component h]

theorem NamedType.displayAs_dottedName (ty : NamedType) (h : ty.dotless = true) :
    ty.displayAs NamedType.dottedName ty.dottedName = ty.display := by
  match ty with
  | ⟨_, none, name, args⟩ =>
    rw [NamedType.dotless, Bool.and_eq_true] at h
    rw [NamedType.displayAs, NamedType.display, NamedType.dottedName,
      TyArg.displayListWith_dottedName args h.2]
  | ⟨_, some q, name, args⟩ =>
    rw [NamedType.dotless, Bool.and_eq_true, Bool.and_eq_true] at h
    obtain ⟨hq, hname, hargs⟩ := h
    have hsplit : Name.splitLast (q.dottedName ++ "." ++ name) = (some q.dottedName, name) := by
      refine Name.splitLast_qualified fun hdot => ?_
      rw [List.contains_iff_mem.mpr hdot] at hname
      cases hname
    rw [NamedType.displayAs, NamedType.display, NamedType.dottedName, Name.front, Name.ending,
      hsplit, Option.getD_some, NamedType.displayAs_dottedName q hq,
      TyArg.displayListWith_dottedName args hargs]
    simp only [String.append_assoc]

theorem TyArg.displayWith_dottedName (a : TyArg) (h : a.dotless = true) :
    a.displayWith NamedType.dottedName = a.display := by
  match a with
  | .type ty =>
    rw [TyArg.dotless] at h
    rw [TyArg.displayWith, TyArg.display, Ty.displayWith_dottedName ty h]
  | .wildcard => rw [TyArg.displayWith, TyArg.display]
  | .bounded kind bound =>
    rw [TyArg.dotless] at h
    rw [TyArg.displayWith, TyArg.display, Ty.displayWith_dottedName bound h]

theorem TyArg.displayListWith_dottedName (args : List TyArg) (h : TyArg.dotlessList args = true) :
    TyArg.displayListWith NamedType.dottedName args = TyArg.displayList args := by
  match args with
  | [] => rw [TyArg.displayListWith, TyArg.displayList]
  | a :: as =>
    rw [TyArg.dotlessList, Bool.and_eq_true] at h
    rw [TyArg.displayListWith, TyArg.displayList, TyArg.displayWith_dottedName a h.1,
      TyArg.displayListWith_dottedName as h.2]

end

/-- No segment has arguments. -/
def NamedType.bare : NamedType → Bool
  | ⟨_, none, _, args⟩ => args.isEmpty
  | ⟨_, some q, _, args⟩ => q.bare && args.isEmpty

mutual

/-- No segment before the last has arguments, here and in the arguments. -/
def Ty.plain : Ty → Bool
  | .primitive _ => true
  | .named ty => ty.plain
  | .array component _ => component.plain

def NamedType.plain : NamedType → Bool
  | ⟨_, none, _, args⟩ => TyArg.plainList args
  | ⟨_, some q, _, args⟩ => q.bare && TyArg.plainList args

def TyArg.plain : TyArg → Bool
  | .type ty => ty.plain
  | .wildcard => true
  | .bounded _ bound => bound.plain

def TyArg.plainList : List TyArg → Bool
  | [] => true
  | a :: as => a.plain && TyArg.plainList as

end

/-! ## Where the texts differ -/

section Texts

variable {names : NamedType → String}

theorem length_angleBrackets (texts : List String) :
    (angleBrackets texts).length = (texts.map String.length).sum + 2 * texts.length := by
  have hjoin : ∀ (s : String) (more : List String),
      (String.intercalate ", " (s :: more)).length + 2 =
        ((s :: more).map String.length).sum + 2 * (s :: more).length := by
    intro s more
    induction more generalizing s with
    | nil => simp [String.intercalate_singleton]
    | cons t more ih =>
      have := ih t
      rw [String.intercalate_cons_cons, String.length_append, String.length_append, List.map_cons,
        List.sum_cons, List.length_cons]
      have hcomma : ", ".length = 2 := by decide
      omega
  cases texts with
  | nil => rfl
  | cons s more =>
    rw [← hjoin, angleBrackets, String.length_append, String.length_append]
    have hopen : "<".length = 1 := by decide
    have hclose : ">".length = 1 := by decide
    · omega
    · exact List.cons_ne_nil s more

theorem length_displayListWith (args : List TyArg) :
    (TyArg.displayListWith names args).length = args.length := by
  induction args with
  | nil =>
    rw [TyArg.displayListWith]
    rfl
  | cons a as ih =>
    rw [TyArg.displayListWith, List.length_cons, List.length_cons, ih]

theorem length_shortListWith (args : List TyArg) :
    (TyArg.shortListWith names args).length = args.length := by
  induction args with
  | nil =>
    rw [TyArg.shortListWith]
    rfl
  | cons a as ih =>
    rw [TyArg.shortListWith, List.length_cons, List.length_cons, ih]

theorem toNat_or_le (a b : Bool) : (a || b).toNat ≤ a.toNat + b.toNat := by
  cases a
  · simp
  · simp

/-- Without arguments there is only the name. -/
theorem NamedType.displayAs_of_bare (name : String) (ty : NamedType) (h : ty.bare = true) :
    ty.displayAs names name = name := by
  match ty with
  | ⟨_, none, _, args⟩ =>
    rw [bare, List.isEmpty_iff] at h
    rw [displayAs, h, TyArg.displayListWith]
    exact String.append_empty
  | ⟨_, some q, _, args⟩ =>
    rw [bare, Bool.and_eq_true, List.isEmpty_iff] at h
    rw [displayAs, displayAs_of_bare _ q h.1, h.2, TyArg.displayListWith, Name.front_append_ending]
    exact String.append_empty

/-- With arguments there is more than the name. -/
theorem NamedType.length_displayAs (name : String) (ty : NamedType) :
    name.length + (!ty.bare).toNat ≤ (ty.displayAs names name).length := by
  have hargs : ∀ args : List TyArg,
      (!args.isEmpty).toNat ≤ (angleBrackets (TyArg.displayListWith names args)).length := by
    intro args
    rw [length_angleBrackets, length_displayListWith]
    cases args with
    | nil => simp
    | cons a as =>
      rw [List.length_cons]
      simp only [List.isEmpty_cons, Bool.not_false, Bool.toNat_true]
      omega
  match ty with
  | ⟨_, none, _, args⟩ =>
    have := hargs args
    rw [bare, displayAs, String.length_append]
    omega
  | ⟨_, some q, _, args⟩ =>
    have hrest := hargs args
    have hq := length_displayAs (Name.front name) q
    have hname := congrArg String.length (Name.front_append_ending name)
    rw [String.length_append] at hname
    rw [bare, displayAs, String.length_append, String.length_append, Bool.not_and]
    have := toNat_or_le (!q.bare) (!args.isEmpty)
    omega

mutual

theorem Ty.displayWith_of_plain (t : Ty) (h : t.plain = true) :
    t.displayWith names = t.shortWith names := by
  match t with
  | .primitive p => rw [Ty.displayWith, Ty.shortWith]
  | .named ty =>
    rw [Ty.plain] at h
    rw [Ty.displayWith, Ty.shortWith, NamedType.displayAs_of_plain ty h]
  | .array component dimension =>
    rw [Ty.plain] at h
    rw [Ty.displayWith, Ty.shortWith, Ty.displayWith_of_plain component h]

theorem NamedType.displayAs_of_plain (ty : NamedType) (h : ty.plain = true) :
    ty.displayAs names (names ty) = ty.shortWith names := by
  match ty with
  | ⟨_, none, _, args⟩ =>
    rw [NamedType.plain] at h
    rw [NamedType.displayAs, NamedType.shortWith, TyArg.displayListWith_of_plain args h]
  | ⟨_, some q, _, args⟩ =>
    rw [NamedType.plain, Bool.and_eq_true] at h
    rw [NamedType.displayAs, NamedType.shortWith, TyArg.displayListWith_of_plain args h.2,
      NamedType.displayAs_of_bare _ q h.1, Name.front_append_ending]

theorem TyArg.displayWith_of_plain (a : TyArg) (h : a.plain = true) :
    a.displayWith names = a.shortWith names := by
  match a with
  | .type ty =>
    rw [TyArg.plain] at h
    rw [TyArg.displayWith, TyArg.shortWith, Ty.displayWith_of_plain ty h]
  | .wildcard => rw [TyArg.displayWith, TyArg.shortWith]
  | .bounded kind bound =>
    rw [TyArg.plain] at h
    rw [TyArg.displayWith, TyArg.shortWith, Ty.displayWith_of_plain bound h]

theorem TyArg.displayListWith_of_plain (args : List TyArg) (h : TyArg.plainList args = true) :
    TyArg.displayListWith names args = TyArg.shortListWith names args := by
  match args with
  | [] => rw [TyArg.displayListWith, TyArg.shortListWith]
  | a :: as =>
    rw [TyArg.plainList, Bool.and_eq_true] at h
    rw [TyArg.displayListWith, TyArg.shortListWith, TyArg.displayWith_of_plain a h.1,
      TyArg.displayListWith_of_plain as h.2]

end

mutual

/-- An argument of a qualifier makes the display longer. -/
theorem Ty.length_shortWith (t : Ty) :
    (t.shortWith names).length + (!t.plain).toNat ≤ (t.displayWith names).length := by
  match t with
  | .primitive p =>
    rw [Ty.shortWith, Ty.displayWith, Ty.plain]
    exact Nat.le_refl _
  | .named ty =>
    rw [Ty.shortWith, Ty.displayWith, Ty.plain]
    exact NamedType.length_shortWith ty
  | .array component dimension =>
    have := Ty.length_shortWith component
    rw [Ty.shortWith, Ty.displayWith, Ty.plain, String.length_append, String.length_append]
    omega

theorem NamedType.length_shortWith (ty : NamedType) :
    (ty.shortWith names).length + (!ty.plain).toNat ≤
      (ty.displayAs names (names ty)).length := by
  match ty with
  | ⟨container, qualifier, name, args⟩ =>
    have hargs := TyArg.length_shortListWith_le args
    rw [NamedType.shortWith, String.length_append, length_angleBrackets, length_shortListWith]
    cases qualifier with
    | none =>
      rw [NamedType.displayAs, NamedType.plain, String.length_append, length_angleBrackets,
        length_displayListWith]
      omega
    | some q =>
      generalize names ⟨container, some q, name, args⟩ = text
      have hq := @NamedType.length_displayAs names (Name.front text) q
      have htext := congrArg String.length (Name.front_append_ending text)
      rw [String.length_append] at htext
      rw [NamedType.displayAs, NamedType.plain, String.length_append, String.length_append,
        length_angleBrackets, length_displayListWith, Bool.not_and]
      have := toNat_or_le (!q.bare) (!TyArg.plainList args)
      omega

theorem TyArg.length_shortWith (a : TyArg) :
    (a.shortWith names).length + (!a.plain).toNat ≤ (a.displayWith names).length := by
  match a with
  | .type ty =>
    rw [TyArg.shortWith, TyArg.displayWith, TyArg.plain]
    exact Ty.length_shortWith ty
  | .wildcard =>
    rw [TyArg.shortWith, TyArg.displayWith, TyArg.plain]
    exact Nat.le_refl _
  | .bounded kind bound =>
    have := Ty.length_shortWith bound
    rw [TyArg.shortWith, TyArg.displayWith, TyArg.plain, String.length_append,
      String.length_append (_ ++ " ")]
    omega

theorem TyArg.length_shortListWith_le (args : List TyArg) :
    ((TyArg.shortListWith names args).map String.length).sum + (!TyArg.plainList args).toNat ≤
      ((TyArg.displayListWith names args).map String.length).sum := by
  match args with
  | [] =>
    rw [TyArg.shortListWith, TyArg.displayListWith, TyArg.plainList]
    exact Nat.le_refl _
  | a :: as =>
    have ha := TyArg.length_shortWith a
    have has := TyArg.length_shortListWith_le as
    have := toNat_or_le (!a.plain) (!TyArg.plainList as)
    rw [TyArg.shortListWith, TyArg.displayListWith, TyArg.plainList, Bool.not_and, List.map_cons,
      List.map_cons, List.sum_cons, List.sum_cons]
    omega

end

/-- Just for plain types nothing is lost. -/
theorem Ty.shortWith_eq_displayWith_iff {t : Ty} :
    t.shortWith names = t.displayWith names ↔ t.plain = true := by
  constructor
  · intro h
    have hlength := @Ty.length_shortWith names t
    rw [h] at hlength
    cases hplain : t.plain with
    | true => rfl
    | false =>
      rw [hplain] at hlength
      simp only [Bool.not_false, Bool.toNat_true] at hlength
      omega
  · exact fun h => (t.displayWith_of_plain h).symm

end Texts

end SourceModel
