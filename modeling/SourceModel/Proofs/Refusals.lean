import SourceModel.Proofs.Drafts

/-!
# Going on past refusals

A refused event changes nothing but what waits for a declaration, and of that it can only drop its
share (`Draft.draft_of_feed_eq_error`). So a run that goes on past refusals is a run without any:
each refused event is replaced by the mere dropping of what it loses (`Draft.replay`), all other
events are accepted as before, and the draft at the end is the same.
-/

namespace SourceModel

/-- An event, or the dropping of some of what waits. -/
inductive Action where
  | event (event : Event)
  | drop (share : Share)

namespace Draft

/-- The events that are accepted, and for each that is refused the dropping of what it loses. -/
def replay (d : Draft) : List Event → List Action
  | [] => []
  | event :: events =>
    match d.feed event with
    | .ok next => .event event :: next.replay events
    | .error _ => .drop (d.lost event) :: (d.drop (d.lost event)).replay events

def perform (d : Draft) : Action → Except Refusal Draft
  | .event event => d.feed event
  | .drop share => .ok (d.drop share)

/-- Performs actions until an event among them is refused. -/
def performAll (d : Draft) : List Action → Except Refusal Draft
  | [] => .ok d
  | action :: actions => do (← d.perform action).performAll actions

end Draft

/-- The unit that comes of some actions. -/
def SourceUnit.ofActions (strict : Bool) (actions : List Action) : Except BuildError SourceUnit :=
  match Draft.empty.performAll actions with
  | .ok d => d.finish strict
  | .error r => .error r.error

namespace Draft

/-- The replay, in which no event is refused, leads to the draft to which the events lead. -/
theorem performAll_replay (d : Draft) (events : List Event) :
    d.performAll (d.replay events) = .ok (d.feedOn events).1 := by
  induction events generalizing d with
  | nil => rfl
  | cons event events ih =>
    rw [replay, feedOn_cons]
    cases hf : d.feed event with
    | ok next =>
      rw [next_of_eq_ok hf]
      show (d.feed event >>= fun e => e.performAll (next.replay events)) = _
      rw [hf]
      exact ih next
    | error r =>
      rw [next_of_eq_error hf, draft_of_feed_eq_error hf]
      exact ih (d.drop (d.lost event))

/-- In every draft that events lead to, whichever of them were refused, a refused event changes
nothing but that it may drop what waits; and the unit that the events make in the end is that of
their replay, in which refused events do no more than that. -/
theorem refused_events_only_drop (events : List Event) :
    (∀ event r, (empty.feedOn events).1.feed event = .error r →
      (empty.feedOn events).1.Keeps r.draft ∧
        r.draft = (empty.feedOn events).1.drop ((empty.feedOn events).1.lost event)) ∧
    ∀ strict, SourceUnit.ofActions strict (empty.replay events) =
      (empty.feedOn events).1.finish strict := by
  refine ⟨fun event r h => ⟨keeps_of_feed_eq_error h, draft_of_feed_eq_error h⟩, fun strict => ?_⟩
  unfold SourceUnit.ofActions
  rw [performAll_replay]

-- a constructor in an interface is refused, and with it go the modifiers that waited for it
example : ((empty.feedOn [.enterType .interfaceType "I", .modifier "public", .enterConstructor,
    .enterMethod "f" (.named [⟨"void", []⟩]), .exitMember, .exitType]).1.unit.decls.map
      fun x => x.methods.map (·.modifiers)) = [[[]]] := by
  decide

end Draft

end SourceModel
