import SourceModel.Proofs.Wrapping

/-!
# Concatenation

Strings that are joined by plus signs have the concatenation of their values as value, however they
are grouped and put in parentheses. Each group is read to one string before it takes its place in
the chain around it (`Concat.items_leaf`), so every chain is read to a chain of strings
(`ConcatChain.exists_items_leaves`), and this becomes one string.
-/

namespace SourceModel

/-- The text of a string literal and its value. -/
structure StringText where
  text : String
  value : String
  reads : Literal.read text = .ok (.string value)

mutual

/-- A string literal, or a group of a chain with parentheses around it. -/
inductive Concat where
  | literal (t : StringText)
  | group (layers : Nat) (chain : ConcatChain)

/-- One or more with a plus between each two. -/
inductive ConcatChain where
  | single (t : Concat)
  | plus (t : Concat) (rest : ConcatChain)

end

mutual

def Concat.leaf : Concat → Leaf
  | .literal t => .literal t.text
  | .group layers chain => .group (Leaf.wrap layers chain.leaves)

def ConcatChain.leaves : ConcatChain → List Leaf
  | .single t => [t.leaf]
  | .plus t rest => t.leaf :: .token "+" :: rest.leaves

end

mutual

/-- The string literals from left to right. -/
def Concat.literals : Concat → List StringText
  | .literal t => [t]
  | .group _ chain => chain.literals

def ConcatChain.literals : ConcatChain → List StringText
  | .single t => t.literals
  | .plus t rest => t.literals ++ rest.literals

end

/-- The values one after the other. -/
def StringText.joined (ts : List StringText) : String :=
  String.join (ts.map (·.value))

theorem StringText.joined_append (as bs : List StringText) :
    joined (as ++ bs) = joined as ++ joined bs := by
  simp [joined]

theorem StringText.eq_of_text_eq {s t : StringText} (h : s.text = t.text) : s = t := by
  obtain ⟨text, value, reads⟩ := s
  obtain ⟨text', value', reads'⟩ := t
  obtain rfl : text = text' := h
  have hvalue := reads.symm.trans reads'
  cases hvalue
  rfl

namespace Expr

theorem parens_chain (first : String) (more : List String) : parens (chain first more) = [] := by
  show parens (plusStrings more) = []
  induction more with
  | nil => rfl
  | cons s more ih => exact ih

theorem reduce_chain_eq (first : String) (more : List String) :
    reduce (chain first more) = [string (String.join (first :: more))] := by
  have h := reduce_chain first more []
  rw [List.append_nil, reduce_singleton] at h
  exact h

end Expr

mutual

theorem Concat.items_leaf (c : Container) (t : Concat) :
    t.leaf.items c = .ok [Expr.string (StringText.joined t.literals)] := by
  cases t with
  | literal t =>
    show (Literal.read t.text >>= fun l => .ok [Expr.literal l]) = _
    rw [t.reads, Concat.literals]
    simp [StringText.joined]
    rfl
  | group layers chain =>
    obtain ⟨first, more, hitems, hjoin⟩ := ConcatChain.exists_items_leaves c chain
    rw [Concat.leaf, Leaf.items_group, Concat.literals, ← hjoin,
      Leaf.map_reduce_wrap_of_items hitems (Expr.parens_chain first more), Expr.reduce_chain_eq]

theorem ConcatChain.exists_items_leaves (c : Container) (chain : ConcatChain) :
    ∃ first more, Leaf.itemsOfList c chain.leaves = .ok (Expr.chain first more) ∧
      String.join (first :: more) = StringText.joined chain.literals := by
  cases chain with
  | single t =>
    refine ⟨StringText.joined t.literals, [], ?_, ?_⟩
    · rw [ConcatChain.leaves, Leaf.itemsOfList_singleton, Concat.items_leaf c t]
      rfl
    · simp [ConcatChain.literals]
  | plus t rest =>
    obtain ⟨first, more, hitems, hjoin⟩ := ConcatChain.exists_items_leaves c rest
    refine ⟨StringText.joined t.literals, first :: more, ?_, ?_⟩
    · rw [ConcatChain.leaves, Leaf.itemsOfList, Concat.items_leaf c t]
      show (Leaf.itemsOfList c rest.leaves >>= fun items => .ok (.token "+" :: items)).map _ = _
      rw [hitems]
      rfl
    · rw [String.join_cons, hjoin, ConcatChain.literals, StringText.joined_append]

end

/-- A chain of string literals has the concatenation of their values as value, however it is
grouped and whatever parentheses stand around it and around its groups. -/
theorem ConcatChain.value_is_concatenation (c : Container) (layers : Nat) (chain : ConcatChain) :
    Expr.ofLeaves c (Leaf.wrap layers chain.leaves) =
      .ok (.literal (.string (String.join (chain.literals.map (·.value))))) ∧
    ∀ c' layers' (chain' : ConcatChain),
      chain'.literals.map (·.text) = chain.literals.map (·.text) →
      Expr.ofLeaves c' (Leaf.wrap layers' chain'.leaves) =
        Expr.ofLeaves c (Leaf.wrap layers chain.leaves) := by
  have hvalue : ∀ c layers (chain : ConcatChain), Expr.ofLeaves c (Leaf.wrap layers chain.leaves) =
      .ok (Expr.string (StringText.joined chain.literals)) := by
    intro c layers chain
    have hitems := Concat.items_leaf c (.group layers chain)
    rw [← Expr.ofLeaves_group, Expr.ofLeaves_eq_map, Leaf.itemsOfList_singleton]
    rw [Concat.leaf] at hitems
    rw [hitems]
    exact congrArg (fun es => Except.ok (Expr.ofItems es)) (Expr.reduce_singleton _)
  refine ⟨hvalue c layers chain, fun c' layers' chain' htexts => ?_⟩
  have hliterals : chain'.literals = chain.literals :=
    (List.map_inj_right fun _ _ => StringText.eq_of_text_eq).mp htexts
  rw [hvalue, hvalue, hliterals]

/-- Three strings in two groupings. -/
theorem ConcatChain.value_of_groupings :
    Expr.ofLeaves .unit [.literal "\"a\"", .token "+",
      .group [.literal "\"\\n\"", .token "+", .literal "\"c\""]] = .ok (Expr.string "a\nc") ∧
    Expr.ofLeaves (.type 0) [.token "(", .group [.token "(", .literal "\"a\"", .token "+",
      .literal "\"\\n\"", .token ")"], .token "+", .literal "\"c\"", .token ")"] =
        .ok (Expr.string "a\nc") := by
  have ha : Literal.read "\"a\"" = .ok (.string "a") := toOption_eq_some_iff.mp (by decide +kernel)
  have hn : Literal.read "\"\\n\"" = .ok (.string "\n") :=
    toOption_eq_some_iff.mp (by decide +kernel)
  have hc : Literal.read "\"c\"" = .ok (.string "c") := toOption_eq_some_iff.mp (by decide +kernel)
  have hjoin : String.join ["a", "\n", "c"] = "a\nc" := by decide
  obtain ⟨hvalue, hgroup⟩ := value_is_concatenation .unit 0
    (.plus (.literal ⟨_, _, ha⟩)
      (.single (.group 0 (.plus (.literal ⟨_, _, hn⟩) (.single (.literal ⟨_, _, hc⟩))))))
  have hfirst := hvalue.trans (congrArg (fun s => Except.ok (Expr.string s)) hjoin)
  refine ⟨hfirst, .trans ?_ hfirst⟩
  exact hgroup (.type 0) 1
    (.plus (.group 1 (.plus (.literal ⟨_, _, ha⟩) (.single (.literal ⟨_, _, hn⟩))))
      (.single (.literal ⟨_, _, hc⟩))) rfl

end SourceModel
