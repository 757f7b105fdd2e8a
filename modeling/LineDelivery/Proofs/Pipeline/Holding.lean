import LineDelivery.Proofs.Backlog.Room
import LineDelivery.Proofs.Pipeline.Standing

/-!
# The backlog of a writer

No step does more to the backlog than one of its own operations. So what these keep holds of the
backlog of every writer: it counts its lines rightly, and they are within the limit of the options.
-/

namespace LineDelivery.Pipeline

variable {setup : Setup} {s t : State}

/-- A step leaves the backlog alone or is one of its operations. -/
theorem State.backlog_of_step? {motive : Backlog → Prop} (same : motive s.backlog)
    (add : ∀ batch delay, motive (s.backlog.add s.now batch delay).1)
    (fire : motive (s.backlog.fire s.now).1) (releaseAll : motive s.backlog.releaseAll.1)
    (close : motive s.backlog.close) {task : Task} (taken : s.step? setup task = some t) :
    motive t.backlog := by
  cases task with
  | buffering =>
    have untouched : t.backlog = s.backlog := congrArg Rear.backlog (rear_of_buffering? taken)
    exact untouched ▸ same
  | alarm =>
    obtain ⟨_, rfl⟩ := fire_of_alarm? taken
    rw [withBacklog_eq]
    exact fire
  | sending =>
    cases action_of_sending? taken with
    | stop => exact close
    | again idle opened retries taken => cases taken <;> exact same
    | fresh idle opened noRetry parcels taken => cases taken <;> exact same
    | barrier => exact same
    | endCall busy isOver ended =>
      cases ended with
      | crashed =>
        dsimp only
        split
        · exact close
        · exact same
      | retried failure wanted left isDelay isAdded => exact isAdded ▸ add _ _
      | _ => exact same
  | client =>
    cases action_of_client? taken with
    | @endWait wait waits isOver =>
      cases wait with
      | bothLoops residual =>
        rw [endWait_bothLoops]
        exact same
      | _ => exact same
    | serve free asked served =>
      cases served with
      | flushStopped | flush => rw [withBacklog_eq]; exact releaseAll
      | close | closeAgain => exact close
      | giveUp =>
        unfold giveUp
        dsimp only
        split
        · exact close
        · exact same
      | _ => exact same

namespace Reachable

theorem limited (reachable : Reachable setup s) :
    s.backlog.Limited setup.options.retryBufferLimit.toNat := by
  induction reachable with
  | start started => exact (start?_eq_ok started).2 ▸ .empty _
  | move _ move ih =>
    cases move with
    | step task taken =>
      exact State.backlog_of_step? (motive := Backlog.Limited _) ih (ih.add _) (ih.fire _)
        ih.releaseAll ih.close taken
    | pass now later => exact ih
    | ask requests idle => exact ih

theorem measured (reachable : Reachable setup s) : s.backlog.Measured :=
  reachable.limited.toMeasured

end Reachable

end LineDelivery.Pipeline
