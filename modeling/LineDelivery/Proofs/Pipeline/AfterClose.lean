import LineDelivery.Proofs.Pipeline.Ending

/-!
# Using a closed writer

Once a closing has come back, lines are refused and a flush does nothing. A record that cannot be
encoded is still counted and reported, since encoding comes before the writer looks whether it is
closed. Nothing else happens, and no call takes any time.
-/

namespace LineDelivery.Pipeline

namespace Request

/-- A line, a record that cannot be encoded, or a flush. -/
def IsUse : Request → Prop
  | line _ | unencodable _ | flush => True
  | close | giveUp | sleep _ => False

def isFault : Request → Bool
  | unencodable _ => true
  | _ => false

/-- What a closed writer does about a request, the newest first. -/
def echo (setup : Setup) : Request → List Event
  | line chunk => if chunk.isEmpty then [] else [.refused]
  | unencodable error =>
    (if setup.verdict?.isSome then [.reported error none 0] else []) ++ [.unencodable error]
  | _ => []

end Request

namespace State

variable {setup : Setup} {s t : State}

/-- A closed writer after some requests: it has noted them, and counted what was not encoded. -/
def used (setup : Setup) (s : State) (requests : List Request) : State :=
  { s with
    stats :=
      { s.stats with
        encodingFailures := s.stats.encodingFailures + requests.countP Request.isFault }
    history := s.stamped (requests.reverse.flatMap (Request.echo setup)) ++ s.history }

@[simp]
theorem used_nil (s : State) : s.used setup [] = s := rfl

theorem used_used (s : State) (first second : List Request) :
    (s.used setup first).used setup second = s.used setup (first ++ second) := by
  simp [used, stamped, Nat.add_assoc]

theorem serve?_of_closing (closing : s.closing) {request : Request} (isUse : request.IsUse) :
    s.serve? setup request = some (s.used setup [request]) := by
  cases request with
  | line chunk =>
    change s.offerLine? setup chunk = _
    unfold offerLine?
    split
    · next empty => simp [used, Request.echo, Request.isFault, empty]
    · next filled => simp [used, Request.echo, Request.isFault, filled, closing, record]
  | unencodable error =>
    change some (s.reportUnencodable setup error) = _
    unfold reportUnencodable
    dsimp only
    split
    · next registered => simp [used, Request.echo, Request.isFault, registered, record]
    · next unregistered => simp [used, Request.echo, Request.isFault, unregistered, record]
  | flush => exact congrArg some (if_pos closing)
  | _ => exact isUse.elim

/-- Only the client has a step when all has ended. -/
theorem Ended.turn?_eq (ended : s.Ended) (sound : s.backlog.Sound) (last : Task) :
    s.turn? setup last = (s.client? setup).map (Task.client, ·) := by
  have noAlarm := alarm?_eq_none sound ended.backlog
  cases last <;> cases client : s.client? setup <;>
    simp [turn?, Task.all, State.step?, ended.buffering?_eq_none, sending?_eq_none ended.sending,
      noAlarm, client]

theorem client?_of_requests (free : s.wait? = none) {request : Request} {rest : List Request}
    (asked : s.requests = request :: rest) :
    s.client? setup = { s with requests := rest }.serve? setup request := by
  unfold client?
  split
  · next waits => simp [free] at waits
  · next idle => simp [asked] at idle
  · next found =>
    obtain ⟨rfl, rfl⟩ := List.cons.inj (asked.symm.trans found)
    rfl

/-- The client's requests are met one after the other. -/
theorem Ended.takeTurns_eq {turns : Nat} (ended : s.Ended) (sound : s.backlog.Sound)
    (free : s.wait? = none) (uses : ∀ request ∈ s.requests, request.IsUse)
    (enough : s.requests.length ≤ turns) (last : Task) :
    takeTurns setup turns last s = { s with requests := [] }.used setup s.requests := by
  induction turns generalizing s last with
  | zero =>
    have none : s.requests = [] := List.eq_nil_of_length_eq_zero (Nat.le_zero.mp enough)
    rw [none, used_nil, takeTurns, ← none]
  | succ turns ih =>
    unfold takeTurns
    rw [ended.turn?_eq sound]
    cases asked : s.requests with
    | nil =>
      have idle : s.client? setup = none := by simp [client?, free, asked]
      rw [idle, used_nil, ← asked]
      rfl
    | cons request rest =>
      rw [asked, List.forall_mem_cons] at uses
      have taken : s.client? setup = some ({ s with requests := rest }.used setup [request]) :=
        (client?_of_requests free asked).trans
          (serve?_of_closing (s := { s with requests := rest }) ended.closing uses.1)
      rw [taken]
      have enoughLeft : rest.length ≤ turns := by simpa [asked] using enough
      have next := ih (s := { s with requests := rest }.used setup [request])
        { ended with } sound free uses.2 enoughLeft .client
      exact next.trans (used_used { s with requests := [] } [request] rest)

/-- There is enough work in the requests for each of them to be met. -/
theorem length_requests_le_work (s : State) : s.requests.length ≤ s.work setup := by
  have each : ∀ requests : List Request,
      requests.length ≤ (requests.map (requestWork setup)).foldr (· + ·) 0 := by
    intro requests
    induction requests with
    | nil => rfl
    | cons request rest ih =>
      have some : 1 ≤ requestWork setup request := by
        cases request <;> simp [requestWork]
      simp only [List.length_cons, List.map_cons, List.foldr_cons]
      omega
  have client := each s.requests
  unfold work clientWork
  omega

/-- A call of a closed writer comes back at once. -/
theorem Ended.perform?_eq (ended : s.Ended) (sound : s.backlog.Sound) (free : s.wait? = none)
    {requests : List Request} (uses : ∀ request ∈ requests, request.IsUse) :
    s.perform? setup 0 requests =
      some ({ s with requests := [], closed? := none }.used setup requests) := by
  have asked : { s with requests, closed? := none }.Ended := { ended with }
  unfold perform? settle
  rw [asked.takeTurns_eq sound free uses (length_requests_le_work _)]
  simp [finishCall?, clientIdle, used, free]

/-- A call that the client makes after a pause, if it comes back at once. -/
def callAfter? (setup : Setup) (s : State) (call : Nat × List Request) : Option State :=
  { s with now := s.now + call.1 }.perform? setup 0 call.2

end State

/-- Lines, flushes and records that cannot be encoded, in any number of calls after a closing has
come back and after any pauses: all calls come back at once and leave the writer as it was, except
that what could not be encoded was counted and reported. -/
theorem Reachable.used_of_joined {setup : Setup} {s : State} (reachable : Reachable setup s)
    (joined : s.joined) (idle : s.clientIdle) {calls : List (Nat × List Request)}
    (uses : ∀ call ∈ calls, ∀ request ∈ call.2, request.IsUse) :
    ∃ t, calls.foldlM (State.callAfter? setup) s = some t ∧
      t.events = (calls.flatMap Prod.snd).reverse.flatMap (Request.echo setup) ++ s.events ∧
      t = { s with
        now := s.now + (calls.map Prod.fst).sum
        closed? := t.closed?
        stats :=
          { s.stats with
            encodingFailures :=
              s.stats.encodingFailures + (calls.flatMap Prod.snd).countP Request.isFault }
        history := t.history } := by
  have ended := reachable.ending.joined joined
  have sound := reachable.standing.backlog
  obtain ⟨none, free⟩ : s.requests = [] ∧ s.wait? = none := by simpa [State.clientIdle] using idle
  clear reachable joined idle
  induction calls generalizing s with
  | nil => exact ⟨s, rfl, rfl, rfl⟩
  | cons call calls ih =>
    obtain ⟨pause, requests⟩ := call
    obtain ⟨first, rest⟩ := List.forall_mem_cons.mp uses
    let later : State := { s with now := s.now + pause }
    have later_ended : later.Ended := { ended with }
    let next : State := { later with requests := [], closed? := Option.none }.used setup requests
    have performed : later.perform? setup 0 requests = some next :=
      later_ended.perform?_eq sound free first
    have next_ended : next.Ended := { ended with }
    obtain ⟨t, done, events, same⟩ := ih (s := next) rest next_ended sound rfl free
    refine ⟨t, ?_, ?_, ?_⟩
    · rw [List.foldlM_cons, State.callAfter?, performed]
      exact done
    · rw [events]
      simp [next, later, State.used, State.events]
    · rw [same]
      simp [next, later, State.used, none, Nat.add_assoc]

/-- The transport that refuses everything, with a handler for what fails. -/
def Setup.attended : Setup :=
  { Setup.refusing with verdict? := some fun _ _ ↦ true }

/-- A writer that was closed at once. -/
def State.shut : State :=
  { start .attended with requests := [.close] }.settle .attended

theorem Reachable.shut : Reachable .attended State.shut :=
  (Reachable.start rfl).runs (State.settle_ask_runs _ rfl)

theorem used_shut : State.shut.joined ∧ State.shut.clientIdle ∧
    ∃ t, [(0, [.line [65], .flush]), (1000, [.unencodable (.encoding "null record")])].foldlM
        (State.callAfter? .attended) State.shut = some t ∧
      t.events = [.reported (.encoding "null record") none 0,
        .unencodable (.encoding "null record"), .refused] ++ State.shut.events ∧
      t = { State.shut with
        now := State.shut.now + 1000
        closed? := t.closed?
        stats :=
          { State.shut.stats with encodingFailures := State.shut.stats.encodingFailures + 1 }
        history := t.history } :=
  have joined : State.shut.joined := by decide +kernel
  have idle : State.shut.clientIdle := by decide +kernel
  ⟨joined, idle, Reachable.shut.used_of_joined joined idle (by simp [Request.IsUse])⟩

/-- A record that cannot be encoded changes the counters of a closed writer, and is reported. -/
theorem shut_counts_unencodable : State.shut.joined ∧ State.shut.clientIdle ∧
    ∃ t, State.shut.perform? .attended 0 [.unencodable (.encoding "null record")] = some t ∧
      t.stats ≠ State.shut.stats ∧ t.events =
        .reported (.encoding "null record") none 0 :: .unencodable (.encoding "null record") ::
          State.shut.events := by
  have joined : State.shut.joined := by decide +kernel
  have ended := Reachable.shut.ending.joined joined
  refine ⟨joined, by decide +kernel, _, ended.perform?_eq Reachable.shut.standing.backlog
    (by decide +kernel) (by simp [Request.IsUse]), ?_, ?_⟩
  · exact fun same ↦ Nat.succ_ne_self _ (congrArg Stats.encodingFailures same)
  · simp [State.used, Request.echo, State.events, Setup.attended]

end LineDelivery.Pipeline
