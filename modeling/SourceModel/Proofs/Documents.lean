import Mathlib.Data.List.Forall2
import SourceModel.Document

/-!
# When JSON documents are equal

Two documents are the same JSON value if they differ at most in the order of the fields of objects
(`Document.Same`). What equal documents were built from is read back field by field: by `Same.field`
under a key that is always there, by `Same.field?` under one that may be left out, and by
`Same.tagged` under a tag.
-/

namespace SourceModel.Document

/-- Equality of JSON values. Objects are equal if they have equal values under every key, in
whichever order; numbers are compared as they are written. -/
inductive Same : Document → Document → Prop where
  | null : Same .null .null
  | bool (b : Bool) : Same (.bool b) (.bool b)
  | number (text : String) : Same (.number text) (.number text)
  | string (s : String) : Same (.string s) (.string s)
  | array {ds es : List Document} : List.Forall₂ Same ds es → Same (.array ds) (.array es)
  | object {fs gs : List (String × Document)} :
      (∀ key, Option.Rel Same (fs.lookup key) (gs.lookup key)) → Same (.object fs) (.object gs)

mutual

theorem Same.refl (d : Document) : Same d d := by
  cases d with
  | null => exact .null
  | bool b => exact .bool b
  | number text => exact .number text
  | string s => exact .string s
  | array items => exact .array (forall₂_same_refl items)
  | object fields => exact .object (lookup_same_refl fields)

theorem forall₂_same_refl (ds : List Document) : List.Forall₂ Same ds ds := by
  cases ds with
  | nil => exact .nil
  | cons d ds => exact .cons (Same.refl d) (forall₂_same_refl ds)

theorem lookup_same_refl (fs : List (String × Document)) (key : String) :
    Option.Rel Same (fs.lookup key) (fs.lookup key) := by
  match fs with
  | [] => exact .none
  | (k, d) :: fs =>
    rw [List.lookup_cons]
    cases key == k with
    | true => exact .some (Same.refl d)
    | false => exact lookup_same_refl fs key

end

/-! ## Reading back -/

section

variable {d e a b : Document} {α : Type} {dump : α → Document}

theorem Same.bool_eq {b c : Bool} (h : Same (.bool b) (.bool c)) : c = b := by
  cases h
  rfl

theorem Same.number_eq {s t : String} (h : Same (.number s) (.number t)) : t = s := by
  cases h
  rfl

theorem Same.string_eq {s t : String} (h : Same (.string s) (.string t)) : t = s := by
  cases h
  rfl

theorem Same.items {ds es : List Document} (h : Same (.array ds) (.array es)) :
    List.Forall₂ Same ds es := by
  cases h with
  | array h => exact h

/-- The value under a key. -/
def field? (key : String) : Document → Option Document
  | .object fields => fields.lookup key
  | _ => none

theorem Same.field? (h : Same d e) (key : String) :
    Option.Rel Same (d.field? key) (e.field? key) := by
  cases h with
  | object h => exact h key
  | _ => exact .none

theorem Same.field (h : Same d e) (key : String) (hd : d.field? key = some a)
    (he : e.field? key = some b) : Same a b := by
  have hrel := h.field? key
  rw [hd, he] at hrel
  cases hrel with
  | some h => exact h

theorem field?_tagged (tag : String) (d : Document) : (Document.tagged tag d).field? tag = some d := by
  simp [Document.tagged, Document.field?]

theorem field?_tagged_of_ne {key tag : String} (h : key ≠ tag) (d : Document) :
    (Document.tagged tag d).field? key = none := by
  show List.lookup key [(tag, d)] = none
  rw [List.lookup_cons, beq_false_of_ne h]
  rfl

theorem Same.tagged {s t : String} (h : Same (.tagged s a) (.tagged t b)) : t = s ∧ Same a b := by
  by_cases hst : s = t
  · subst hst
    exact ⟨rfl, h.field s (field?_tagged s a) (field?_tagged s b)⟩
  · have hrel := h.field? s
    rw [field?_tagged, field?_tagged_of_ne hst] at hrel
    cases hrel

/-! ### Fields that may be left out -/

/-- What is under the key of a list that is left out if it is empty. -/
def nonempty? (items : List Document) : Option Document :=
  if items.isEmpty then none else some (.array items)

theorem lookup_nonempty (key : String) (items : List Document) :
    (Document.nonempty key items).lookup key = nonempty? items := by
  unfold Document.nonempty nonempty?
  split <;> simp

theorem lookup_nonempty_of_ne {key other : String} (h : key ≠ other) (items : List Document) :
    (Document.nonempty other items).lookup key = none := by
  unfold Document.nonempty
  split
  · rfl
  · exact field?_tagged_of_ne h (.array items)

theorem items_of_nonempty? {ds es : List Document}
    (h : Option.Rel Same (nonempty? ds) (nonempty? es)) : List.Forall₂ Same ds es := by
  cases ds <;> cases es <;> cases h
  · exact .nil
  · next h => exact h.items

/-! ### Values that are told by their dumps -/

/-- Lists are told by the dumps of their members, if the members are. -/
theorem eq_of_forall₂_dump {as bs : List α}
    (h : List.Forall₂ Same (as.map dump) (bs.map dump))
    (hdump : ∀ a ∈ as, ∀ b ∈ bs, Same (dump a) (dump b) → b = a) : bs = as := by
  rw [List.forall₂_map_left_iff, List.forall₂_map_right_iff] at h
  induction h with
  | nil => rfl
  | cons hab _ ih =>
    rw [hdump _ (.head _) _ (.head _) hab,
      ih fun a ha b hb => hdump a (.tail _ ha) b (.tail _ hb)]

theorem eq_of_rel_map_dump {o o' : Option α} (h : Option.Rel Same (o.map dump) (o'.map dump))
    (hdump : ∀ a, o = some a → ∀ b, o' = some b → Same (dump a) (dump b) → b = a) : o' = o := by
  cases o <;> cases o' <;> cases h
  · rfl
  · next h => rw [hdump _ rfl _ rfl h]

end

end SourceModel.Document
