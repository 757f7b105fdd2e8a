import LineDelivery.Proofs.Pipeline.Standstill

/-!
# A transport that breaks the sending loop

A call of the transport can break the loop while a flush or a closing waits for it. The loop is gone
for good then, with all that it had before it. The backlog of an open writer keeps its alarm and the
buffering loop learns of it only at its next hand-over, but nothing reaches the transport, the backoff
or a callback about a batch any more, and no client hangs.
-/

namespace LineDelivery.Pipeline

namespace State

variable {setup : Setup} {s t : State} {batch : Batch}

theorem crashed_not_mem_reports {error : DeliveryError} {attempt : Nat} {other : Batch} :
    .crashed batch ∉ reports setup error other attempt := by
  unfold reports
  split <;> simp

theorem TakenUp.crashed_of_mem {other : Batch} (taken : TakenUp setup s other t)
    (there : .crashed batch ∈ t.events) : .crashed batch ∈ s.events := by
  cases taken <;> simpa [events, crashed_not_mem_reports] using there

theorem CallEnded.crashed_of_mem {call : Call} (ended : CallEnded setup s call t)
    (there : .crashed batch ∈ t.events) : t.sending = .crashed ∨ .crashed batch ∈ s.events := by
  cases ended with
  | crashed => exact .inl rfl
  | _ => exact .inr (by simpa [events, crashed_not_mem_reports] using there)

/-- The history tells of a crash only when the loop has crashed. -/
theorem crashed_of_sending? (taken : s.sending? setup = some t) (there : .crashed batch ∈ t.events) :
    t.sending = .crashed ∨ .crashed batch ∈ s.events := by
  cases action_of_sending? taken with
  | stop => exact .inr (by simpa [events, stopSending, record] using there)
  | again idle opened retries taken => exact .inr (taken.crashed_of_mem there)
  | fresh idle opened noRetry parcels taken => exact .inr (taken.crashed_of_mem there)
  | barrier => exact .inr there
  | endCall busy isOver ended => exact ended.crashed_of_mem there

theorem crashed_of_step? (shown : .crashed batch ∈ s.events → s.sending = .crashed) {task : Task}
    (taken : s.step? setup task = some t) (there : .crashed batch ∈ t.events) :
    t.sending = .crashed := by
  by_cases other : task = .sending
  · subst other
    refine (crashed_of_sending? taken there).resolve_right fun before ↦ ?_
    have none : s.sending? setup = none := sending?_eq_none (by simp [shown before, Sending.isOver])
    simp [step?, none] at taken
  · rw [(sendingSide_of_step? other taken).1]
    obtain ⟨block, history, own⟩ := writes_of_step? taken
    rw [events_of_history history] at there
    refine shown ((List.mem_append.mp there).resolve_left fun new ↦ other ?_)
    simpa [Event.writers] using own _ new

end State

namespace Reachable

variable {setup : Setup} {s t : State} {batch : Batch}

theorem sending_of_crashed (reachable : Reachable setup s) :
    .crashed batch ∈ s.events → s.sending = .crashed := by
  induction reachable with
  | start started =>
    rw [(start?_eq_ok started).2]
    simp [State.events, State.start, State.record]
  | move _ move ih =>
    cases move with
    | step task taken => exact State.crashed_of_step? ih taken
    | pass now later => exact ih
    | ask requests idle => exact ih

/-- After a crash of the transport no call of the client waits on time, be it one that was under way
or a later one. The transport is not called again, nobody is asked or told about a batch any more,
and the counters stay, but for that of the records that could not be encoded. -/
theorem contained (reachable : Reachable setup s) (crashed : .crashed batch ∈ s.events)
    (run : Runs setup s t) :
    AtOnce setup State.Unblocked t ∧
      (∃ since, t.events = since ++ s.events ∧ ∀ event ∈ since, event.isDelivery = false) ∧
      t.calls = s.calls ∧
      t.stats = { s.stats with encodingFailures := t.stats.encodingFailures } := by
  have isOver : s.sending.isOver := by simp [reachable.sending_of_crashed crashed, Sending.isOver]
  obtain ⟨sending, still⟩ := State.standstill_of_runs isOver run
  exact ⟨(reachable.runs run).unblocked (sending ▸ isOver), still.events, still.calls, still.stats⟩

end Reachable

/-- A transport that refuses the first batch, and breaks half a second after it is given the
second. -/
def Setup.fragile : Setup where
  options := { batchSize := 1 }
  reply asked :=
    if asked = 0 then .answer 0 (some (.server 503 "busy" none)) else .crash 500000000
  verdict? := none
  delay _ _ _ := 1000000000

/-- A writer at the crash, when a client has made these calls half a second before. -/
def State.broken (requests : List Request) : State :=
  takeTurns .fragile 1 .sending
    { { start .fragile with requests }.settle .fragile with now := 500000000 }

theorem Reachable.broken {requests : List Request}
    (later : ({ State.start .fragile with requests }.settle .fragile).now ≤ 500000000) :
    Reachable .fragile (State.broken requests) :=
  (Reachable.start rfl).runs (((State.settle_ask_runs requests rfl).tail (.pass _ later)).trans
    (State.takeTurns_runs _ _))

/-- A writer at the crash with a line for which there is no room and with a pending retry, one whose
client waits for a flush, and one whose client waits for a closing; each client has still more to
do. -/
theorem contained_broken :
    let batch : Batch :=
      { serial := 1, chunks := [[66, 10]], remaining := 5, expires := 180000000000 }
    let writing := State.broken [.line [65], .line [66], .line [67], .line [68], .line [69],
      .line [70], .flush, .close]
    let flushing := State.broken [.line [65], .line [66], .line [67], .flush, .line [68], .close]
    let closing := State.broken [.line [65], .line [66], .line [67], .close, .line [68], .flush]
    writing.lineQueue = [[69]] ∧ writing.requests = [.line [70], .flush, .close] ∧
      writing.backlog.alarm = some 1000000000 ∧
    flushing.wait? = some .barrier ∧ flushing.requests = [.line [68], .close] ∧
    closing.wait? = some (.bothLoops 1) ∧ closing.requests = [.line [68], .flush] ∧
    ∀ s ∈ [writing, flushing, closing], .crashed batch ∈ s.events ∧
      AtOnce .fragile State.Unblocked s ∧ (s.settle .fragile).calls = s.calls := by
  intro batch writing flushing closing
  have reachable : ∀ s ∈ [writing, flushing, closing], Reachable .fragile s := by
    simp only [List.forall_mem_cons]
    exact ⟨.broken (by decide +kernel), .broken (by decide +kernel), .broken (by decide +kernel),
      by simp⟩
  have crashed : ∀ s ∈ [writing, flushing, closing], .crashed batch ∈ s.events := by
    decide +kernel
  refine ⟨by decide +kernel, by decide +kernel, by decide +kernel, by decide +kernel,
    by decide +kernel, by decide +kernel, by decide +kernel, fun s there ↦ ?_⟩
  have now := (reachable s there).contained (crashed s there) .refl
  have later := (reachable s there).contained (crashed s there) State.settle_runs
  exact ⟨crashed s there, now.1, later.2.2.1⟩

end LineDelivery.Pipeline
