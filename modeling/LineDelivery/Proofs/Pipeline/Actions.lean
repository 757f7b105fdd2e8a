import LineDelivery.Pipeline.Step
import LineDelivery.Proofs.Pipeline.Effects

/-!
# What a task does at its turn

A step of a task is one of a few actions, each with the state that it finds and the state that it
leaves. What is proved of the steps is proved action by action.
-/

namespace LineDelivery.Pipeline.State

variable {setup : Setup} {s t : State}

/-! ## The buffering loop -/

/-- The buffering loop of an open writer has nothing to hand over. -/
structure HandsFree (s : State) : Prop where
  opened : s.closing = false
  handing? : s.buffering.handing? = none
  outbox : s.buffering.outbox = []

inductive BufferingAction (setup : Setup) (s : State) : State → Prop
  | stop (ended : s.closing ∨ s.buffering.handing?.isSome ∧ s.sending.isOver) :
      BufferingAction setup s s.stopBuffering
  | enqueue {parcel : Parcel} (opened : s.closing = false)
      (handing : s.buffering.handing? = some parcel) (alive : s.sending.isOver = false)
      (room : s.batchQueue.length < setup.channelCapacity) :
      BufferingAction setup s (s.enqueue parcel)
  | beginHandOver {next : Outgoing} {rest : List Outgoing} (opened : s.closing = false)
      (free : s.buffering.handing? = none) (outbox : s.buffering.outbox = next :: rest) :
      BufferingAction setup s (s.beginHandOver setup next rest)
  | restartTimer (free : s.HandsFree) (restart : s.buffering.restart) :
      BufferingAction setup s (s.restartTimer setup)
  | gather {chunk : Bytes} {rest : List Bytes} (free : s.HandsFree)
      (started : s.buffering.restart = false) (queue : s.lineQueue = chunk :: rest) :
      BufferingAction setup s (s.gather chunk rest)
  | flushBuffer (free : s.HandsFree) (started : s.buffering.restart = false)
      (queue : s.lineQueue = []) (due : s.buffering.flushAt ≤ s.now) :
      BufferingAction setup s s.flushBuffer
  | flushOnRequest (free : s.HandsFree) (started : s.buffering.restart = false)
      (queue : s.lineQueue = []) (early : s.now < s.buffering.flushAt) (asked : s.flushAsked) :
      BufferingAction setup s s.flushOnRequest

theorem running_of_buffering? (taken : s.buffering? setup = some t) : s.buffering.running := by
  cases running : s.buffering.running with
  | true => rfl
  | false => simp [buffering?, running] at taken

theorem action_of_attend? (free : s.HandsFree) (started : s.buffering.restart = false)
    (taken : s.attend? = some t) : BufferingAction setup s t := by
  unfold attend? at taken
  split at taken
  · next queue => exact Option.some.inj taken ▸ .gather free started queue
  next queue =>
  split at taken
  · next due => exact Option.some.inj taken ▸ .flushBuffer free started queue due
  next early =>
  split at taken
  · next asked =>
    exact Option.some.inj taken ▸
      .flushOnRequest free started queue (Nat.lt_of_not_le early) asked
  · simp at taken

theorem action_of_buffering? (taken : s.buffering? setup = some t) :
    BufferingAction setup s t := by
  simp only [buffering?, running_of_buffering? taken, Bool.not_true, Bool.false_eq_true, if_false]
    at taken
  split at taken
  · next closing => exact Option.some.inj taken ▸ .stop (.inl closing)
  next opened =>
  rw [Bool.not_eq_true] at opened
  split at taken
  · next parcel handing =>
    unfold hand? at taken
    split at taken
    · next isOver => exact Option.some.inj taken ▸ .stop (.inr ⟨by simp [handing], isOver⟩)
    next alive =>
    split at taken
    · next room =>
      exact Option.some.inj taken ▸ .enqueue opened handing (Bool.eq_false_iff.mpr alive) room
    · simp at taken
  · next free outbox => exact Option.some.inj taken ▸ .beginHandOver opened free outbox
  · next free outbox =>
    have handsFree : s.HandsFree := ⟨opened, free, outbox⟩
    split at taken
    · next restart => exact Option.some.inj taken ▸ .restartTimer handsFree restart
    · next started => exact action_of_attend? handsFree (Bool.eq_false_iff.mpr started) taken

/-! ## The alarm -/

theorem fire_of_alarm? (taken : s.alarm? = some t) :
    s.backlog.alarmDue s.now ∧ t = s.withBacklog (s.backlog.fire s.now) := by
  unfold alarm? at taken
  split at taken
  · next due => exact ⟨due, (Option.some.inj taken).symm⟩
  · simp at taken

/-! ## The sending loop -/

/-- A batch that is taken up has expired, or begins to be sent. -/
inductive TakenUp (setup : Setup) (s : State) (batch : Batch) : State → Prop
  | expired (isOver : batch.hasExpired s.now) :
      TakenUp setup s batch
        { s with
          stats := { s.stats with batchesExpired := s.stats.batchesExpired + 1 }
          verdicts := s.verdicts +
            (reports setup .maxRetryTimeExceeded batch (attemptOf setup batch)).length
          history := s.stamped (reports setup .maxRetryTimeExceeded batch (attemptOf setup batch) ++
            [.expired batch (attemptOf setup batch)]) ++ s.history }
  | called (inTime : batch.hasExpired s.now = false) :
      TakenUp setup s batch
        { s with
          sending := .calling
            { batch
              attempt := attemptOf setup batch
              asked := s.calls
              endsAt := Time.wakeUp (Time.deadline s.now (setup.reply s.calls).delay) }
          calls := s.calls + 1
          history := s.stamped [.called batch (attemptOf setup batch)] ++ s.history }

theorem takenUp_takeUp (s : State) (batch : Batch) :
    TakenUp setup s batch (s.takeUp setup batch) := by
  unfold takeUp
  dsimp only
  split
  · next isOver =>
    rw [dropExpired, report_eq]
    simpa [record, stamped] using TakenUp.expired isOver
  · next inTime => exact .called (Bool.eq_false_iff.mpr inTime)

/-- A call that has ended broke the loop, or delivered its batch, or failed and is tried again or
not. -/
inductive CallEnded (setup : Setup) (s : State) (call : Call) : State → Prop
  | crashed {took : Nat} (crash : setup.reply call.asked = .crash took) :
      CallEnded setup s call
        { s with
          batchQueue := []
          retryQueue := []
          sending := .crashed
          backlog := if s.closing then s.backlog.close else s.backlog
          history := s.stamped [.crashed call.batch] ++ s.history }
  | delivered {took : Nat} (success : setup.reply call.asked = .answer took none) :
      CallEnded setup s call
        { s with
          sending := .idle
          stats := { s.stats with batchesSent := s.stats.batchesSent + 1 }
          history := s.stamped [.delivered call.batch call.attempt, .backoffReset,
            .answered call.batch call.attempt none] ++ s.history }
  | abandoned {took : Nat} {error : DeliveryError}
      (failure : setup.reply call.asked = .answer took (some error))
      (final : (setup.wantsRetry s.verdicts error && 0 < call.batch.remaining) = false) :
      CallEnded setup s call
        { s with
          sending := .idle
          stats := { s.stats with batchesFailed := s.stats.batchesFailed + 1 }
          verdicts := s.verdicts + (reports setup error call.batch call.attempt).length
          history := s.stamped (.abandoned call.batch call.attempt error ::
            (reports setup error call.batch call.attempt ++
              [.answered call.batch call.attempt (some error)])) ++ s.history }
  | retried {took : Nat} {error : DeliveryError} {delay : Nat}
      {added : Backlog × List Backlog.Event}
      (failure : setup.reply call.asked = .answer took (some error))
      (wanted : setup.wantsRetry s.verdicts error)
      (left : 0 < call.batch.remaining) (isDelay : delay = setup.delay s.delays error call.attempt)
      (isAdded : added =
        s.backlog.add s.now { call.batch with remaining := call.batch.remaining - 1 } delay) :
      CallEnded setup s call
        { s with
          sending := .idle
          backlog := added.1
          stats :=
            { s.stats with
              retriesScheduled := s.stats.retriesScheduled + 1
              linesSkipped := s.stats.linesSkipped + skippedLines added.2 }
          verdicts := s.verdicts + (reports setup error call.batch call.attempt).length
          delays := s.delays + 1
          history := s.stamped (added.2.reverse.map .backlog ++
            .retrying call.batch call.attempt error delay :: .delayed error call.attempt delay ::
              (reports setup error call.batch call.attempt ++
                [.answered call.batch call.attempt (some error)])) ++ s.history }

theorem callEnded_endCall (s : State) (call : Call) :
    CallEnded setup s call (s.endCall setup call) := by
  unfold endCall
  split
  · next crash => exact .crashed crash
  dsimp only
  split
  · next success => exact .delivered success
  next error failure =>
  rw [handleFailure, report_eq]
  split
  · next again =>
    rw [Bool.and_eq_true, decide_eq_true_iff] at again
    have retried : CallEnded setup s call _ := .retried failure again.1 again.2 rfl rfl
    rw [scheduleRetry, holdForRetry_eq]
    simpa [record, stamped] using retried
  · next final =>
    have abandoned : CallEnded setup s call _ :=
      .abandoned failure (Bool.eq_false_iff.mpr final)
    simpa [abandon, record, stamped] using abandoned

inductive SendingAction (setup : Setup) (s : State) : State → Prop
  | stop (idle : s.sending = .idle) (ended : s.closing ∨
      s.retryQueue = [] ∧ s.batchQueue = [] ∧ s.buffering.running = false) :
      SendingAction setup s s.stopSending
  | again {batch : Batch} {rest : List Batch} {t : State} (idle : s.sending = .idle)
      (opened : s.closing = false) (retries : s.retryQueue = batch :: rest)
      (taken : TakenUp setup { s with retryQueue := rest } batch t) : SendingAction setup s t
  | fresh {batch : Batch} {rest : List Parcel} {t : State} (idle : s.sending = .idle)
      (opened : s.closing = false) (noRetry : s.retryQueue = [])
      (parcels : s.batchQueue = .batch batch :: rest)
      (taken : TakenUp setup { s with batchQueue := rest } batch t) : SendingAction setup s t
  | barrier {rest : List Parcel} (idle : s.sending = .idle) (opened : s.closing = false)
      (noRetry : s.retryQueue = []) (parcels : s.batchQueue = .barrier :: rest) :
      SendingAction setup s { s with batchQueue := rest }
  | endCall {call : Call} {t : State} (busy : s.sending = .calling call)
      (isOver : call.endsAt ≤ s.now) (ended : CallEnded setup s call t) : SendingAction setup s t

theorem action_of_nextParcel? (idle : s.sending = .idle) (opened : s.closing = false)
    (taken : s.nextParcel? setup = some t) : SendingAction setup s t := by
  unfold nextParcel? at taken
  split at taken
  · next retries =>
    exact Option.some.inj taken ▸ .again idle opened retries (takenUp_takeUp _ _)
  · next retries parcels =>
    exact Option.some.inj taken ▸ .fresh idle opened retries parcels (takenUp_takeUp _ _)
  · next retries parcels => exact Option.some.inj taken ▸ .barrier idle opened retries parcels
  · next retries parcels =>
    split at taken
    · simp at taken
    · next stopped =>
      exact Option.some.inj taken ▸
        .stop idle (.inr ⟨retries, parcels, Bool.eq_false_iff.mpr stopped⟩)

theorem action_of_sending? (taken : s.sending? setup = some t) : SendingAction setup s t := by
  unfold sending? at taken
  split at taken
  · next idle =>
    split at taken
    · next closing => exact Option.some.inj taken ▸ .stop idle (.inl closing)
    · next opened => exact action_of_nextParcel? idle (Bool.eq_false_iff.mpr opened) taken
  · next busy =>
    split at taken
    · next isOver => exact Option.some.inj taken ▸ .endCall busy isOver (callEnded_endCall _ _)
    · simp at taken
  · simp at taken
  · simp at taken

/-! ## The client -/

/-- What a call of an idle client does at once. -/
inductive Served (setup : Setup) (s : State) : Request → State → Prop
  | empty : Served setup s (.line []) s
  | refused {chunk : Bytes} (filled : chunk ≠ []) (closing : s.closing) :
      Served setup s (.line chunk) (s.record .refused)
  | lost {chunk : Bytes} (filled : chunk ≠ []) (opened : s.closing = false)
      (stopped : s.buffering.running = false) : Served setup s (.line chunk) (s.record .lost)
  | accepted {chunk : Bytes} (filled : chunk ≠ []) (opened : s.closing = false)
      (running : s.buffering.running) (room : s.lineQueue.length < setup.channelCapacity) :
      Served setup s (.line chunk)
        ({ s with lineQueue := s.lineQueue ++ [chunk] }.record (.accepted chunk))
  | unencodable (error : DeliveryError) :
      Served setup s (.unencodable error)
        { s with
          stats := { s.stats with encodingFailures := s.stats.encodingFailures + 1 }
          history := s.stamped ((if setup.verdict?.isSome then [.reported error none 0] else []) ++
            [.unencodable error]) ++ s.history }
  | flushClosed (closing : s.closing) : Served setup s .flush s
  | flushStopped (opened : s.closing = false) (stopped : s.buffering.running = false) :
      Served setup s .flush
        ((s.withBacklog s.backlog.releaseAll).record (.flushing s.backlog.items.length))
  | flush (opened : s.closing = false) (running : s.buffering.running) :
      Served setup s .flush
        { (s.withBacklog s.backlog.releaseAll).record (.flushing s.backlog.items.length) with
          flushAsked := true, wait? := some .barrier }
  | close (first : s.joined = false) :
      Served setup s .close
        { s with
          backlog := s.backlog.close
          closing := true
          wait? := some (.bothLoops s.backlog.size) }
  | closeAgain (joined : s.joined) :
      Served setup s .close
        ({ s with backlog := s.backlog.close, closing := true }.finishClose s.backlog.size)
  | giveUp : Served setup s .giveUp s.giveUp
  | sleep (duration : Nat) :
      Served setup s (.sleep duration)
        { s with wait? := some (.instant (Time.wakeUp (Time.deadline s.now duration))) }

theorem served_of_offerLine? {chunk : Bytes} (taken : s.offerLine? setup chunk = some t) :
    Served setup s (.line chunk) t := by
  unfold offerLine? at taken
  split at taken
  · next useless =>
    obtain rfl := List.isEmpty_iff.mp useless
    exact Option.some.inj taken ▸ .empty
  next filled =>
  have filled : chunk ≠ [] := by simpa using filled
  split at taken
  · next closing => exact Option.some.inj taken ▸ .refused filled closing
  next opened =>
  rw [Bool.not_eq_true] at opened
  split at taken
  · next stopped => exact Option.some.inj taken ▸ .lost filled opened (by simpa using stopped)
  next running =>
  split at taken
  · next room => exact Option.some.inj taken ▸ .accepted filled opened (by simpa using running) room
  · simp at taken

theorem served_beginFlush (s : State) : Served setup s .flush s.beginFlush := by
  unfold beginFlush
  split
  · next closing => exact .flushClosed closing
  next opened =>
  rw [Bool.not_eq_true] at opened
  dsimp only
  split
  · next running => exact .flush opened (by simpa [withBacklog_eq, record] using running)
  · next stopped => exact .flushStopped opened (by simpa [withBacklog_eq, record] using stopped)

theorem served_of_serve? {request : Request} (taken : s.serve? setup request = some t) :
    Served setup s request t := by
  cases request with
  | line chunk => exact served_of_offerLine? taken
  | unencodable error =>
    rw [← Option.some.inj taken, reportUnencodable]
    dsimp only
    have noted : Served setup s (.unencodable error) _ := .unencodable error
    split
    · next registered => simpa [registered, record, stamped] using noted
    · next unregistered => simpa [unregistered, record, stamped] using noted
  | flush => exact Option.some.inj taken ▸ served_beginFlush s
  | close =>
    rw [← Option.some.inj taken, beginClose]
    dsimp only
    split
    · next joined => exact .closeAgain joined
    · next first => exact .close (Bool.eq_false_iff.mpr first)
  | giveUp => exact Option.some.inj taken ▸ .giveUp
  | sleep duration => exact Option.some.inj taken ▸ .sleep duration

/-- A client goes on after a wait, or begins its next call. -/
inductive ClientAction (setup : Setup) (s : State) : State → Prop
  | endWait {wait : Wait} (waits : s.wait? = some wait) (isOver : s.waitIsOver wait) :
      ClientAction setup s (s.endWait wait)
  | serve {request : Request} {rest : List Request} {t : State} (free : s.wait? = none)
      (asked : s.requests = request :: rest)
      (served : Served setup { s with requests := rest } request t) : ClientAction setup s t

theorem action_of_client? (taken : s.client? setup = some t) : ClientAction setup s t := by
  unfold client? at taken
  split at taken
  · next waits =>
    split at taken
    · next isOver => exact Option.some.inj taken ▸ .endWait waits isOver
    · simp at taken
  · simp at taken
  · next free requests => exact .serve free requests (served_of_serve? taken)

end LineDelivery.Pipeline.State
