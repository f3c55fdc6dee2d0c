import Telemetry.Capture.Middleware

/-!
# Applications behind a relay

An application cannot tell whether its messages go straight to the client or through a relay, nor
which events there are around its own. So it does the same in both cases, and what the relay makes
of its messages is all that changes.

Main statement: `App.run_within`.
-/

namespace Telemetry.Capture

open Http

variable {α : Type} {c outer : Context}

/-! ## Events around others -/

namespace Context

theorem event?_append (h : c ≠ []) (outer : Context) : event? (c ++ outer) = event? c := by
  cases c with
  | nil => exact absurd rfl h
  | cons event rest => rfl

theorem change_append (h : c ≠ []) (event : Json.Object) (outer : Context) :
    change event (c ++ outer) = change event c ++ outer := by
  cases c with
  | nil => exact absurd rfl h
  | cons current rest => rfl

@[simp] theorem length_change (event : Json.Object) (c : Context) :
    (change event c).length = c.length := by
  cases c <;> rfl

@[simp] theorem tail_change (event : Json.Object) (c : Context) :
    (change event c).tail = c.tail := by
  cases c <;> rfl

/-- A change of the current event is undone with the event, and the outer ones are as before. -/
theorem unbind_bind (event changed : Json.Object) (c : Context) :
    unbind (c.bind event).1 ([changed] ++ c) = c := by
  show ([changed] ++ c).drop (([changed] ++ c).length - c.length) = c
  rw [List.length_append, Nat.add_sub_cancel, List.drop_left]

end Context

/-! ## Runs -/

namespace App

/-- An application changes no event but the current one. -/
theorem run_context (app : App α) (relay : Message → Message) (s : Surroundings) :
    (app.run relay s).2.2.context.length = s.context.length ∧
      (app.run relay s).2.2.context.tail = s.context.tail := by
  induction app generalizing s with
  | done ending result => exact ⟨rfl, rfl⟩
  | send message next ih => exact ih _
  | receive next ih => exact ih _ _
  | pause seconds next ih => exact ih _
  | look next ih => exact ih _ _ s
  | change event next ih =>
    obtain ⟨hlength, htail⟩ := ih { s with context := s.context.change event }
    exact ⟨hlength.trans (Context.length_change ..), htail.trans (Context.tail_change ..)⟩

/-- With one event to begin with there is one event in the end. -/
theorem run_context_singleton (app : App α) (relay : Message → Message) {s : Surroundings}
    {event : Json.Object} (h : s.context = [event]) :
    ∃ changed, (app.run relay s).2.2.context = [changed] := by
  rw [← List.length_eq_one_iff, (app.run_context relay s).1, h]
  rfl

end App

/-- The same surroundings behind a relay: some messages have been sent before, those of the
application have gone through the relay, and there are events around its own. -/
def Surroundings.within (relay : Message → Message) (before : List Message) (outer : Context)
    (s : Surroundings) : Surroundings :=
  { s with sent := before ++ s.sent.map relay, context := s.context ++ outer }

/-- **Applications do not notice a relay**: behind it they end the same way and leave the same, and
the client gets what the relay makes of each message. -/
theorem App.run_within (app : App α) (relay : Message → Message) (before : List Message)
    (outer : Context) {s : Surroundings} (h : s.context ≠ []) :
    app.run relay (s.within relay before outer) =
      ((app.run id s).1, (app.run id s).2.1, (app.run id s).2.2.within relay before outer) := by
  -- Every step keeps the two sides alike and leaves the application an event of its own, which is
  -- what the induction needs of the surroundings.
  induction app generalizing s with
  | done ending result => rfl
  | send message next ih =>
    have hsent : (s.within relay before outer).sent ++ [relay message] =
        before ++ (s.sent ++ [message]).map relay := by
      simp [Surroundings.within]
    rw [run, hsent]
    exact ih (s := { s with sent := s.sent ++ [message] }) h
  | receive next ih => exact ih _ (s := { s with incoming := (nextMessage s.incoming).2 }) h
  | pause seconds next ih => exact ih (s := { s with world := s.world.elapse seconds }) h
  | look next ih =>
    -- The current event is the application's own, whatever is behind it.
    rw [run, Surroundings.within, Context.event?_append h]
    exact ih _ _ h
  | change event next ih =>
    have hne : s.context.change event ≠ [] := by
      rw [← List.length_pos_iff, Context.length_change, List.length_pos_iff]
      exact h
    rw [run, Surroundings.within, Context.change_append h]
    exact ih (s := { s with context := s.context.change event }) hne

/-! ## Statuses -/

/-- The status that was sent is the same behind a relay that keeps the statuses of messages. -/
theorem sentStatus?_addTraceId (traceId : String) (messages : List Message) :
    sentStatus? (messages.map (addTraceId traceId)) = sentStatus? messages := by
  rw [sentStatus?, List.foldl_map]
  congr
  funext status message
  cases message <;> rfl

end Telemetry.Capture
