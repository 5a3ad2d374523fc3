import SourceModel.Proofs.LiteralTexts

/-!
# The first fault

A path leads to a leaf by numbers: the number of a leaf in a sequence, then that of a sequence in
this leaf, and so on in turn (`Leaf.atOfList?`). Paths that are compared like words in a dictionary
are compared from left to right. The literal texts of a sequence are those at the ends of all paths
to literals, in that order (`Leaf.lists_textsOfList`), so a sequence that has no value fails at the
first of these that is no literal.
-/

namespace SourceModel

/-! ## Paths -/

namespace Leaf

/-- The sequences of leaves in a leaf, from left to right. -/
def sequences : Leaf → List (List Leaf)
  | .creation _ args => args
  | .group leaves => [leaves]
  | .array elements => elements
  | .annotationUse a => a.values.map (·.value)
  | _ => []

mutual

/-- What stands at the end of a path that begins at a leaf. -/
def at? (l : Leaf) : List Nat → Option Leaf
  | [] => some l
  | k :: path => l.sequences[k]?.bind fun leaves => atOfList? leaves path

/-- What stands at the end of a path that begins in a sequence of leaves. -/
def atOfList? (leaves : List Leaf) : List Nat → Option Leaf
  | [] => none
  | i :: path => leaves[i]?.bind fun l => at? l path

end

/-- What stands at the end of a path that begins in several sequences. -/
def atOfSequences? (sequences : List (List Leaf)) : List Nat → Option Leaf
  | [] => none
  | k :: path => sequences[k]?.bind fun leaves => atOfList? leaves path

end Leaf

/-- The path ends further left than the other. -/
abbrev LeftOf (path other : List Nat) : Prop :=
  List.Lex (· < ·) path other

/-- The path with one more for its first number. -/
def afterFirst : List Nat → List Nat
  | [] => []
  | i :: path => (i + 1) :: path

theorem leftOf_afterFirst {path other : List Nat} (h : LeftOf path other) :
    LeftOf (afterFirst path) (afterFirst other) := by
  cases h with
  | nil => exact .nil
  | rel h => exact .rel (Nat.succ_lt_succ h)
  | cons h => exact .cons h

theorem not_leftOf_of_leftOf {path other : List Nat} (h : LeftOf path other) :
    ¬ LeftOf other path :=
  List.lex_asymm (fun h => Nat.lt_asymm h) h

theorem not_leftOf_self (path : List Nat) : ¬ LeftOf path path :=
  fun h => not_leftOf_of_leftOf h h

/-! ## Lists of texts -/

/-- The texts are those of the literals that are found, from left to right. -/
def ListsLiterals (found : List Nat → Option Leaf) (texts : List String) : Prop :=
  ∃ placed : List (List Nat × String), placed.map (·.2) = texts ∧
    placed.Pairwise (fun x y => LeftOf x.1 y.1) ∧
    ∀ path text, (path, text) ∈ placed ↔ found path = some (.literal text)

section ListsLiterals

variable {found first rest : List Nat → Option Leaf} {texts more : List String}

theorem listsLiterals_nil (h : ∀ path text, found path ≠ some (.literal text)) :
    ListsLiterals found [] :=
  ⟨[], rfl, .nil, fun path text => by simp [h path text]⟩

theorem ListsLiterals.congr (hfirst : ListsLiterals first texts)
    (h : ∀ path text, found path = some (.literal text) ↔ first path = some (.literal text)) :
    ListsLiterals found texts := by
  obtain ⟨placed, htexts, hsorted, hmem⟩ := hfirst
  exact ⟨placed, htexts, hsorted, fun path text => (hmem path text).trans (h path text).symm⟩

/-- What is found under the number zero comes before what is found under the other numbers. -/
theorem ListsLiterals.cons (hfirst : ListsLiterals first texts) (hrest : ListsLiterals rest more)
    (hnil : found [] = none) (hzero : ∀ path, found (0 :: path) = first path)
    (hsucc : ∀ i path, found ((i + 1) :: path) = rest (i :: path)) (hrest_nil : rest [] = none) :
    ListsLiterals found (texts ++ more) := by
  obtain ⟨placed, rfl, hsorted, hmem⟩ := hfirst
  obtain ⟨placed', rfl, hsorted', hmem'⟩ := hrest
  refine ⟨placed.map (fun x => (0 :: x.1, x.2)) ++ placed'.map (fun x => (afterFirst x.1, x.2)),
    by simp [Function.comp_def], ?_, ?_⟩
  · refine List.pairwise_append.mpr ⟨?_, ?_, ?_⟩
    · exact List.pairwise_map.mpr (hsorted.imp .cons)
    · exact List.pairwise_map.mpr (hsorted'.imp leftOf_afterFirst)
    · simp only [List.mem_map]
      rintro _ ⟨x, -, rfl⟩ _ ⟨⟨path, text⟩, hy, rfl⟩
      cases path with
      | nil =>
        rw [hmem', hrest_nil] at hy
        cases hy
      | cons i path => exact .rel (Nat.succ_pos i)
  · intro path text
    rw [List.mem_append, List.mem_map, List.mem_map]
    constructor
    · rintro (⟨⟨path', _⟩, hx, heq⟩ | ⟨⟨path', _⟩, hx, heq⟩)
      · cases heq
        rw [hzero]
        exact (hmem _ _).mp hx
      · cases heq
        have hx := (hmem' _ _).mp hx
        cases path' with
        | nil =>
          rw [hrest_nil] at hx
          cases hx
        | cons i path' => exact (hsucc i path').trans hx
    · intro h
      rcases path with _ | ⟨_ | i, path⟩
      · rw [hnil] at h
        cases h
      · rw [hzero] at h
        exact .inl ⟨(path, text), (hmem _ _).mpr h, rfl⟩
      · rw [hsucc] at h
        exact .inr ⟨(i :: path, text), (hmem' _ _).mpr h, rfl⟩

/-- The first text at fault stands left of all others at fault. -/
theorem ListsLiterals.firstFault?_eq_some_iff (h : ListsLiterals found texts) {e : LiteralError} :
    Literal.firstFault? texts = some e ↔ ∃ path text,
      found path = some (.literal text) ∧ Literal.read text = .error e ∧
      ∀ path' text', LeftOf path' path → found path' = some (.literal text') →
        ∃ l, Literal.read text' = .ok l := by
  obtain ⟨placed, rfl, hsorted, hmem⟩ := h
  simp only [Literal.firstFault?, List.findSome?_map, List.findSome?_eq_some_iff,
    Function.comp_apply, fault?_eq_some_iff, fault?_eq_none_iff]
  constructor
  · rintro ⟨before, ⟨path, text⟩, after, rfl, he, hbefore⟩
    refine ⟨path, text, (hmem _ _).mp (by simp), he, fun path' text' hleft hfound => ?_⟩
    have hsplit := List.mem_append.mp ((hmem _ _).mpr hfound)
    have hafter := (List.pairwise_cons.mp (List.pairwise_append.mp hsorted).2.1).1
    rcases hsplit with hin | hin
    · exact hbefore (path', text') hin
    · rcases List.mem_cons.mp hin with heq | hin
      · cases heq
        exact absurd hleft (not_leftOf_self path)
      · exact absurd hleft (not_leftOf_of_leftOf (hafter (path', text') hin))
  · rintro ⟨path, text, hfound, he, hbefore⟩
    obtain ⟨before, after, rfl⟩ := List.append_of_mem ((hmem _ _).mpr hfound)
    refine ⟨before, (path, text), after, rfl, he, fun x hx => ?_⟩
    have hleft := (List.pairwise_append.mp hsorted).2.2 x hx _ List.mem_cons_self
    exact hbefore x.1 x.2 hleft ((hmem x.1 x.2).mp (List.mem_append_left _ hx))

theorem ListsLiterals.allRead_iff (h : ListsLiterals found texts) :
    Literal.allRead texts ↔
      ∀ path text, found path = some (.literal text) → ∃ l, Literal.read text = .ok l := by
  obtain ⟨placed, rfl, -, hmem⟩ := h
  simp only [← Literal.firstFault?_eq_none_iff, Literal.firstFault?, List.findSome?_map,
    List.findSome?_eq_none_iff, Function.comp_apply, fault?_eq_none_iff, ← hmem]
  exact ⟨fun h path text => h (path, text), fun h x => h x.1 x.2⟩

end ListsLiterals

/-! ## The texts of leaves -/

namespace Leaf

/-- In a leaf that is no literal, the literals are those in its sequences. -/
theorem lists_at?_of_sequences {l : Leaf} {sequences : List (List Leaf)} {texts : List String}
    (hl : ∀ text, l ≠ .literal text) (hs : l.sequences = sequences)
    (h : ListsLiterals (atOfSequences? sequences) texts) : ListsLiterals l.at? texts := by
  refine h.congr fun path text => ?_
  cases path with
  | nil => simp [at?, atOfSequences?, hl text]
  | cons k path => rw [at?, hs, atOfSequences?]

theorem listsLiterals_atOfSequences?_nil : ListsLiterals (atOfSequences? []) [] :=
  listsLiterals_nil fun path text => by cases path <;> simp [atOfSequences?]

theorem listsLiterals_atOfSequences?_cons {leaves : List Leaf} {sequences : List (List Leaf)}
    {texts more : List String} (hleaves : ListsLiterals (atOfList? leaves) texts)
    (hrest : ListsLiterals (atOfSequences? sequences) more) :
    ListsLiterals (atOfSequences? (leaves :: sequences)) (texts ++ more) :=
  hleaves.cons hrest rfl (fun _ => rfl) (fun _ _ => rfl) rfl

theorem listsLiterals_literal (text : String) : ListsLiterals (literal text).at? [text] := by
  refine ⟨[([], text)], rfl, List.pairwise_singleton _ _, fun path text' => ?_⟩
  cases path with
  | nil => simp [at?, eq_comm]
  | cons k path => simp [at?, sequences]

mutual

theorem lists_texts (l : Leaf) : ListsLiterals l.at? l.texts := by
  cases l with
  | literal text => exact listsLiterals_literal text
  | name text => exact lists_at?_of_sequences nofun rfl listsLiterals_atOfSequences?_nil
  | token text => exact lists_at?_of_sequences nofun rfl listsLiterals_atOfSequences?_nil
  | creation target args => exact lists_at?_of_sequences nofun rfl (lists_textsOfSequences args)
  | group leaves =>
    have h := listsLiterals_atOfSequences?_cons (lists_textsOfList leaves)
      listsLiterals_atOfSequences?_nil
    rw [List.append_nil] at h
    exact lists_at?_of_sequences nofun rfl h
  | array elements => exact lists_at?_of_sequences nofun rfl (lists_textsOfSequences elements)
  | annotationUse a =>
    cases a with
    | mk name values => exact lists_at?_of_sequences nofun rfl (lists_textsOfValues values)
  | unknown code => exact lists_at?_of_sequences nofun rfl listsLiterals_atOfSequences?_nil

theorem lists_textsOfList (ls : List Leaf) : ListsLiterals (atOfList? ls) (textsOfList ls) := by
  cases ls with
  | nil => exact listsLiterals_nil fun path text => by cases path <;> simp [atOfList?]
  | cons l ls =>
    exact (lists_texts l).cons (lists_textsOfList ls) rfl (fun _ => rfl) (fun _ _ => rfl) rfl

theorem lists_textsOfSequences (sequences : List (List Leaf)) :
    ListsLiterals (atOfSequences? sequences) (textsOfSequences sequences) := by
  cases sequences with
  | nil => exact listsLiterals_atOfSequences?_nil
  | cons leaves rest =>
    exact listsLiterals_atOfSequences?_cons (lists_textsOfList leaves) (lists_textsOfSequences rest)

theorem lists_textsOfValues (values : List WrittenValue) :
    ListsLiterals (atOfSequences? (values.map (·.value))) (WrittenValue.textsOfList values) := by
  cases values with
  | nil => exact listsLiterals_atOfSequences?_nil
  | cons value rest =>
    cases value with
    | mk name leaves =>
      exact listsLiterals_atOfSequences?_cons (lists_textsOfList leaves) (lists_textsOfValues rest)

end

end Leaf

/-! ## The value of leaves -/

/-- Leaves have a value unless a literal among them, at whatever depth, cannot be read. Their error
is then that of the leftmost such literal. -/
theorem Expr.fails_at_first_malformed_literal (c : Container) (leaves : List Leaf) :
    ((∃ e, ofLeaves c leaves = .error e) ↔ ∃ path text e,
      Leaf.atOfList? leaves path = some (.literal text) ∧ Literal.read text = .error e) ∧
    (∀ e, ofLeaves c leaves = .error e ↔ ∃ path text,
      Leaf.atOfList? leaves path = some (.literal text) ∧ Literal.read text = .error e ∧
      ∀ path' text', LeftOf path' path → Leaf.atOfList? leaves path' = some (.literal text') →
        ∃ l, Literal.read text' = .ok l) ∧
    ((∃ v, ofLeaves c leaves = .ok v) ↔ ∀ path text,
      Leaf.atOfList? leaves path = some (.literal text) → ∃ l, Literal.read text = .ok l) := by
  have hlists := Leaf.lists_textsOfList leaves
  have hreads := reads_ofLeaves c leaves
  have herror : ∀ e, ofLeaves c leaves = .error e ↔ ∃ path text,
      Leaf.atOfList? leaves path = some (.literal text) ∧ Literal.read text = .error e ∧
      ∀ path' text', LeftOf path' path → Leaf.atOfList? leaves path' = some (.literal text') →
        ∃ l, Literal.read text' = .ok l := by
    intro e
    rw [← fault?_eq_some_iff, hreads, hlists.firstFault?_eq_some_iff]
  have hvalue : (∃ v, ofLeaves c leaves = .ok v) ↔ ∀ path text,
      Leaf.atOfList? leaves path = some (.literal text) → ∃ l, Literal.read text = .ok l :=
    hreads.exists_ok_iff.trans hlists.allRead_iff
  refine ⟨⟨?_, ?_⟩, herror, hvalue⟩
  · rintro ⟨e, he⟩
    obtain ⟨path, text, hfound, hread, -⟩ := (herror e).mp he
    exact ⟨path, text, e, hfound, hread⟩
  · rintro ⟨path, text, e, hfound, hread⟩
    cases h : ofLeaves c leaves with
    | error e' => exact ⟨e', rfl⟩
    | ok v =>
      obtain ⟨l, hl⟩ := hvalue.mp ⟨v, h⟩ path text hfound
      rw [hread] at hl
      cases hl

end SourceModel
