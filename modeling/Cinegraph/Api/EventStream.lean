import Cinegraph.AgentJobs.InMemoryInvariant
import Cinegraph.Library.Numbered
import Cinegraph.Library.Numerals
import Cinegraph.Library.Run
import Mathlib.Data.Rat.Defs

/-!
The event stream of an agent job and the endpoint that opens it, for a client that reconnects with
the number of the last event it received. Events are appended, connections are lost and the clock
advances at any time; a frame on its way to the client is lost with its connection.
-/

namespace Cinegraph.Api

open Library AgentJobErrorMessages

/-- The log of a job: its events are numbered from 1 and nothing follows a terminal one. -/
structure JobLog where
  events : List AgentJobEvent
  numbered : Numbered (·.sequence) events
  ended : ∀ before event after, events = before ++ event :: after →
    event.kind.terminal = true → after = []

/-- The logs that the repository keeps are such logs. -/
def JobLog.ofInvariant [Normalization] {job : AgentJob} {events : List AgentJobEvent}
    (invariant : LogInvariant job events) : JobLog where
  events := events
  numbered := invariant.numbered
  ended before event after same terminal := by
    have kinds := invariant.lifecycle
    rw [same, List.map_append, List.map_cons] at kinds
    exact List.map_eq_nil_iff.mp (kinds.terminal_last terminal)

/-- `events_after` -/
def JobLog.eventsAfter (log : JobLog) (sequence : Nat) : List AgentJobEvent :=
  log.events.filter fun event => sequence < event.sequence

theorem JobLog.eventsAfter_eq (log : JobLog) (sequence : Nat) :
    log.eventsAfter sequence = log.events.drop sequence :=
  log.numbered.filter_lt sequence

/-- The limits of the stream; times are in seconds. -/
structure AgentJobConfiguration where
  sseMaxEvents : Nat
  sseReplayBatch : Nat
  sseHeartbeatIntervalSeconds : ℚ
  sseMaxDurationSeconds : ℚ
  batch_positive : 1 ≤ sseReplayBatch
  batch_le : sseReplayBatch ≤ sseMaxEvents
  heartbeat_positive : 0 < sseHeartbeatIntervalSeconds
  heartbeat_le : sseHeartbeatIntervalSeconds ≤ sseMaxDurationSeconds

def DEFAULT_AGENT_JOB_CONFIGURATION : AgentJobConfiguration where
  sseMaxEvents := 128
  sseReplayBatch := 64
  sseHeartbeatIntervalSeconds := 15
  sseMaxDurationSeconds := 120
  batch_positive := by decide
  batch_le := by decide
  heartbeat_positive := by decide
  heartbeat_le := by decide

/-- A frame of an event that was read and not yet sent; an event stands for its frame. -/
structure PendingFrame where
  sequence : Nat
  frame : AgentJobEvent
  terminal : Bool

def PendingFrame.of (event : AgentJobEvent) : PendingFrame :=
  ⟨event.sequence, event, event.kind.terminal⟩

structure AgentJobEventStream where
  sequence : Nat
  started : ℚ
  heartbeatAt : ℚ
  emitted : Nat
  pending : List PendingFrame
  terminal : Bool

/-- What the clock and the transport say while a frame is asked for. -/
structure Readings where
  entered : ℚ
  enteredDisconnected : Bool
  now : ℚ
  disconnected : Bool
  heartbeat : ℚ

/-- What comes of asking for a frame, up to the next sleep. -/
inductive Turn where
  | stop
  | frame (event : AgentJobEvent)
  | heartbeat
  | sleep

namespace AgentJobEventStream

/-- The constructor. -/
def start (sequence : Nat) (started : ℚ) : AgentJobEventStream where
  sequence := sequence
  started := started
  heartbeatAt := started
  emitted := 0
  pending := []
  terminal := false

variable (configuration : AgentJobConfiguration) (log : JobLog) (stream : AgentJobEventStream)

def limited (now : ℚ) (disconnected : Bool) : Prop :=
  configuration.sseMaxEvents ≤ stream.emitted ∨
    configuration.sseMaxDurationSeconds ≤ now - stream.started ∨ disconnected = true

instance (now : ℚ) (disconnected : Bool) :
    Decidable (stream.limited configuration now disconnected) := by
  unfold limited
  infer_instance

def emit (item : PendingFrame) (rest : List PendingFrame) : Turn × AgentJobEventStream :=
  (.frame item.frame, { stream with
    sequence := item.sequence
    terminal := item.terminal
    emitted := stream.emitted + 1
    pending := rest })

/-- The events read at once, as frames. -/
def batch : List PendingFrame :=
  ((log.eventsAfter stream.sequence).take
    (min configuration.sseReplayBatch (configuration.sseMaxEvents - stream.emitted))).map .of

/-- `__anext__`, entered anew or resumed after its sleep. -/
def anext (resumed : Bool) (readings : Readings) : Turn × AgentJobEventStream :=
  if resumed = false ∧
      stream.limited configuration readings.entered readings.enteredDisconnected then
    (.stop, stream)
  else match stream.pending with
    | item :: rest => stream.emit item rest
    | [] =>
        if stream.terminal = true ∨
            stream.limited configuration readings.now readings.disconnected then
          (.stop, stream)
        else match stream.batch configuration log with
          | item :: rest => stream.emit item rest
          | [] =>
              if configuration.sseHeartbeatIntervalSeconds ≤
                  readings.heartbeat - stream.heartbeatAt then
                (.heartbeat, { stream with heartbeatAt := readings.heartbeat })
              else (.sleep, stream)

end AgentJobEventStream

/-- An answer without a stream: a status, or an exception that no handler expects. -/
inductive Refusal where
  | status (code : Nat) (detail : String)
  | uncaught (error : Raised)
  deriving DecidableEq

def LAST_EVENT_ID_INVALID : String := "Last-Event-ID must be a nonnegative sequence."

/-- The number that `agent_job_events` takes from the header. -/
def requestedSequence (lastEventId : Option String) : Except Refusal Int :=
  match lastEventId with
  | none => .ok 0
  | some text =>
      if 20 < text.toList.length ∨ Text.isDigits text.toList = false ∨
          1 < text.toList.length ∧ text.toList.head? = some '0' then
        .error (.status 422 LAST_EVENT_ID_INVALID)
      else match Text.readInt text.toList with
        | none => .error (.uncaught (valueError "invalid literal for int() with base 10"))
        | some sequence =>
            if (DEFAULT_AGENT_JOB_CONFIGURATION.sseMaxEvents : Int) < sequence then
              .error (.status 422 LAST_EVENT_ID_INVALID)
            else .ok sequence

/-- A connection, and the frames that are on their way to the client. -/
structure Connection where
  stream : AgentJobEventStream
  sleeping : Bool
  ended : Bool
  inFlight : List AgentJobEvent

structure State where
  log : JobLog
  /-- All events the client ever received. -/
  received : List AgentJobEvent
  connection : Option Connection

def State.initial (log : JobLog) : State := ⟨log, [], none⟩

/-- What the client sends as `Last-Event-ID`. -/
def State.lastEventId (s : State) : Option String :=
  s.received.getLast?.map fun event => event.sequence.repr

inductive Action where
  | grow (log : JobLog)
  | connect (started : ℚ)
  | turn (readings : Readings)
  | receive
  | disconnect

def Connection.turn (log : JobLog) (readings : Readings) (c : Connection) : Connection :=
  match c.stream.anext DEFAULT_AGENT_JOB_CONFIGURATION log c.sleeping readings with
  | (.stop, stream) => { c with stream := stream, ended := true }
  | (.frame event, stream) =>
      { c with stream := stream, sleeping := false, inFlight := c.inFlight ++ [event] }
  | (.heartbeat, stream) => { c with stream := stream, sleeping := false }
  | (.sleep, stream) => { c with stream := stream, sleeping := true }

def step (s : State) : Action → Option State
  | .grow log => if s.log.events <+: log.events then some { s with log := log } else none
  | .connect started =>
      match requestedSequence s.lastEventId with
      | .ok sequence => some { s with
          connection := some ⟨.start sequence.toNat started, false, false, []⟩ }
      | .error _ => some { s with connection := none }
  | .turn readings =>
      match s.connection with
      | some c => if c.ended then none else
          some { s with connection := some (c.turn s.log readings) }
      | none => none
  | .receive =>
      match s.connection with
      | some c =>
          match c.inFlight with
          | event :: rest => some { s with
              received := s.received ++ [event]
              connection := some { c with inFlight := rest } }
          | [] => none
      | none => none
  | .disconnect => some { s with connection := none }

section Stream

variable {configuration : AgentJobConfiguration} {log : JobLog} {stream : AgentJobEventStream}
  {resumed : Bool} {readings : Readings}

/-- What a stream has read and not sent comes next in the log. -/
structure AgentJobEventStream.Ready (log : JobLog) (stream : AgentJobEventStream) : Prop where
  within : stream.sequence ≤ log.events.length
  next : ∃ events, stream.pending = events.map .of ∧ events <+: log.events.drop stream.sequence

/-- The stream after the event at its position was sent, with what it has read of the rest. -/
def AgentJobEventStream.sent (stream : AgentJobEventStream) (event : AgentJobEvent)
    (rest : List AgentJobEvent) : AgentJobEventStream :=
  { stream with
    sequence := stream.sequence + 1
    terminal := event.kind.terminal
    emitted := stream.emitted + 1
    pending := rest.map .of }

/-- What asking for a frame can come to: at most the next event of the log is sent. -/
inductive Advances (log : JobLog) (stream : AgentJobEventStream) :
    Turn × AgentJobEventStream → Prop where
  | stop : Advances log stream (.stop, stream)
  | heartbeat (now : ℚ) : Advances log stream (.heartbeat, { stream with heartbeatAt := now })
  | sleep : Advances log stream (.sleep, stream)
  | frame {event : AgentJobEvent} {rest : List AgentJobEvent}
      (next : event :: rest <+: log.events.drop stream.sequence) :
      Advances log stream (.frame event, stream.sent event rest)

theorem getElem?_of_next {position : Nat} {event : AgentJobEvent} {rest : List AgentJobEvent}
    (next : event :: rest <+: log.events.drop position) : log.events[position]? = some event := by
  obtain ⟨others, same⟩ := next
  have head := congrArg (·[0]?) same
  simp only [List.cons_append, List.getElem?_cons_zero, List.getElem?_drop, Nat.add_zero] at head
  exact head.symm

theorem emit_eq {event : AgentJobEvent} {rest : List AgentJobEvent}
    (next : event :: rest <+: log.events.drop stream.sequence) :
    stream.emit (.of event) (rest.map .of) = (.frame event, stream.sent event rest) := by
  have number : event.sequence = stream.sequence + 1 :=
    log.numbered.getElem? (getElem?_of_next next)
  simp only [AgentJobEventStream.emit, AgentJobEventStream.sent, PendingFrame.of, number]

theorem advances_emit {event : AgentJobEvent} {rest : List AgentJobEvent}
    (next : event :: rest <+: log.events.drop stream.sequence) :
    Advances log stream (stream.emit (.of event) (rest.map .of)) := by
  rw [emit_eq next]
  exact .frame next

variable (configuration log stream) in
theorem batch_eq : ∃ events, stream.batch configuration log = events.map .of ∧
    events <+: log.events.drop stream.sequence := by
  refine ⟨_, rfl, ?_⟩
  rw [log.eventsAfter_eq]
  exact List.take_prefix _ _

theorem anext_advances (ready : stream.Ready log) :
    Advances log stream (stream.anext configuration log resumed readings) := by
  obtain ⟨sequence, started, heartbeatAt, emitted, pending, terminal⟩ := stream
  obtain ⟨events, rfl, next⟩ := ready.next
  unfold AgentJobEventStream.anext
  split
  · exact .stop
  · cases events with
    | cons event rest => exact advances_emit next
    | nil =>
        simp only [List.map_nil]
        split
        · exact .stop
        · obtain ⟨read, batch, later⟩ := batch_eq configuration log
            ⟨sequence, started, heartbeatAt, emitted, [], terminal⟩
          rw [batch]
          cases read with
          | cons event rest => exact advances_emit later
          | nil =>
              simp only [List.map_nil]
              split
              · exact .heartbeat _
              · exact .sleep

variable (resumed readings) in
/-- A stream within its limits sends the next event of the log, if there is one. -/
theorem anext_delivers (ready : stream.Ready log) (goes_on : stream.terminal = false)
    (stored : stream.sequence < log.events.length)
    (entered : ¬stream.limited configuration readings.entered readings.enteredDisconnected)
    (within : ¬stream.limited configuration readings.now readings.disconnected) :
    ∃ event rest, event :: rest <+: log.events.drop stream.sequence ∧
      stream.anext configuration log resumed readings = (.frame event, stream.sent event rest) := by
  obtain ⟨events, pending, next⟩ := ready.next
  have enters : ¬(resumed = false ∧
      stream.limited configuration readings.entered readings.enteredDisconnected) :=
    fun stops => entered stops.2
  have continues : ¬(stream.terminal = true ∨
      stream.limited configuration readings.now readings.disconnected) := by
    rw [goes_on, not_or]
    exact ⟨Bool.false_ne_true, within⟩
  unfold AgentJobEventStream.anext
  rw [if_neg enters, pending]
  cases events with
  | cons event rest =>
      simp only [List.map_cons, emit_eq next]
      exact ⟨event, rest, next, rfl⟩
  | nil =>
      simp only [List.map_nil, if_neg continues]
      obtain ⟨event, rest, more⟩ : ∃ event rest, log.events.drop stream.sequence = event :: rest :=
        List.exists_cons_of_ne_nil (mt List.drop_eq_nil_iff.mp (by omega))
      have few : stream.emitted < configuration.sseMaxEvents := by
        unfold AgentJobEventStream.limited at within
        omega
      have positive := configuration.batch_positive
      obtain ⟨size, count⟩ : ∃ size, min configuration.sseReplayBatch
          (configuration.sseMaxEvents - stream.emitted) = size + 1 :=
        Nat.exists_eq_succ_of_ne_zero (by omega)
      have read : stream.batch configuration log = .of event :: (rest.take size).map .of := by
        rw [AgentJobEventStream.batch, log.eventsAfter_eq, more, count, List.take_succ_cons,
          List.map_cons]
      have later : event :: rest.take size <+: log.events.drop stream.sequence := by
        rw [more]
        exact List.prefix_cons_inj _ |>.mpr (List.take_prefix _ _)
      simp only [read, emit_eq later]
      exact ⟨event, rest.take size, later, rfl⟩

end Stream

section Runs

/-- A connection has sent the first events of the log, and has read the next ones. -/
structure Connection.Sound (log : JobLog) (received : List AgentJobEvent) (c : Connection) :
    Prop where
  sent : received ++ c.inFlight = log.events.take c.stream.sequence
  ready : c.stream.Ready log
  terminal : c.stream.terminal = true → ∃ before event,
    received ++ c.inFlight = before ++ [event] ∧ event.kind.terminal = true

structure Invariant (s : State) : Prop where
  received : s.received <+: s.log.events
  connection : ∀ c, s.connection = some c → c.Sound s.log s.received

variable {s t : State} {action : Action} {c : Connection}

/-- After a terminal event there is nothing more to send. -/
theorem Connection.Sound.goes_on {log : JobLog} {received : List AgentJobEvent}
    (sound : c.Sound log received) (stored : c.stream.sequence < log.events.length) :
    c.stream.terminal = false := by
  by_contra ends
  obtain ⟨before, event, sent, terminal⟩ := sound.terminal (Bool.not_eq_false _ ▸ ends)
  have whole := List.take_append_drop c.stream.sequence log.events
  rw [← sound.sent, sent, List.append_assoc] at whole
  have none_left := log.ended before event (log.events.drop c.stream.sequence) whole.symm terminal
  rw [List.drop_eq_nil_iff] at none_left
  omega

theorem Connection.Sound.turn {log : JobLog} {received : List AgentJobEvent}
    (sound : c.Sound log received) (readings : Readings) :
    (c.turn log readings).Sound log received := by
  have advances : Advances log c.stream
      (c.stream.anext DEFAULT_AGENT_JOB_CONFIGURATION log c.sleeping readings) :=
    anext_advances sound.ready
  unfold Connection.turn
  generalize c.stream.anext DEFAULT_AGENT_JOB_CONFIGURATION log c.sleeping readings = outcome
    at advances ⊢
  cases advances with
  | stop => exact ⟨sound.sent, sound.ready, sound.terminal⟩
  | heartbeat now => exact ⟨sound.sent, ⟨sound.ready.within, sound.ready.next⟩, sound.terminal⟩
  | sleep => exact ⟨sound.sent, sound.ready, sound.terminal⟩
  | @frame event rest next =>
      obtain ⟨others, same⟩ := next
      have longer : log.events.take (c.stream.sequence + 1) =
          log.events.take c.stream.sequence ++ [event] := by
        rw [List.take_add, ← same]
        rfl
      have shorter : log.events.drop (c.stream.sequence + 1) = rest ++ others := by
        rw [← List.drop_drop, ← same]
        rfl
      have bound : c.stream.sequence + 1 ≤ log.events.length := by
        by_contra beyond
        rw [List.drop_eq_nil_of_le (by omega)] at same
        cases same
      refine ⟨?_, ⟨bound, rest, rfl, ?_⟩, fun ends => ⟨received ++ c.inFlight, event, ?_, ends⟩⟩
      · change received ++ (c.inFlight ++ [event]) = log.events.take (c.stream.sequence + 1)
        rw [longer, ← sound.sent, List.append_assoc]
      · change rest <+: log.events.drop (c.stream.sequence + 1)
        rw [shorter]
        exact List.prefix_append _ _
      · exact (List.append_assoc _ _ _).symm

/-- A number that was sent is taken back where it is at most the limit of one connection. -/
theorem requestedSequence_repr (k : Nat) : requestedSequence (some k.repr) =
    if 128 < k then .error (.status 422 LAST_EVENT_ID_INVALID) else .ok (k : Int) := by
  split
  · rename_i large
    simp only [requestedSequence]
    split
    · rfl
    · rename_i accepted
      have short : k.repr.toList.length ≤ Text.maxLiteralDigits := by
        change k.repr.toList.length ≤ 4300
        omega
      rw [Text.readInt_repr short]
      exact if_pos (Int.ofNat_lt.mpr large)
  · rename_i small
    have each : ∀ k : Fin 129, requestedSequence (some k.val.repr) = .ok (k.val : Int) := by
      decide +kernel
    exact each ⟨k, by omega⟩

/-- A header is taken as a number or refused, unless it passes for digits and is no number. -/
theorem requestedSequence_of_decimal {text : String}
    (decimal : ∀ c ∈ text.toList, Text.isDigits [c] = true → (Text.digitValue? c).isSome = true) :
    requestedSequence (some text) = .error (.status 422 LAST_EVENT_ID_INVALID) ∨
      ∃ k : Nat, k ≤ 128 ∧ requestedSequence (some text) = .ok (k : Int) := by
  simp only [requestedSequence]
  split
  · exact .inl rfl
  · rename_i accepted
    rw [not_or, not_or, Bool.not_eq_false, not_lt] at accepted
    obtain ⟨short, digits, -⟩ := accepted
    rw [Text.isDigits, Bool.and_eq_true, decide_eq_true_iff, List.all_eq_true] at digits
    have every : ∀ c ∈ text.toList, (Text.digitValue? c).isSome = true := by
      intro c member
      apply decimal c member
      simpa [Text.isDigits] using digits.2 c member
    have shorter : text.toList.length ≤ Text.maxLiteralDigits := by
      change text.toList.length ≤ 4300
      omega
    rw [Text.readInt_of_decimal digits.1 shorter every]
    dsimp only
    split
    · exact .inl rfl
    · rename_i small
      exact .inr ⟨_, Int.ofNat_le.mp (Int.not_lt.mp small), rfl⟩

/-- The client asks for what follows the events it received. -/
theorem Invariant.requested (invariant : Invariant s) : requestedSequence s.lastEventId =
    if 128 < s.received.length then .error (.status 422 LAST_EVENT_ID_INVALID)
    else .ok (s.received.length : Int) := by
  rcases List.eq_nil_or_concat s.received with empty | ⟨before, event, same⟩
  · rw [State.lastEventId, empty]
    rfl
  · have numbered := s.log.numbered.of_prefix invariant.received
    have found : s.received[before.length]? = some event := by
      rw [same, List.concat_eq_append, List.getElem?_concat_length]
    have number : event.sequence = before.length + 1 := numbered.getElem? found
    have last : s.lastEventId = some s.received.length.repr := by
      rw [State.lastEventId, same, List.concat_eq_append, List.getLast?_concat, Option.map_some,
        number, List.length_append, List.length_singleton]
    rw [last]
    exact requestedSequence_repr _

theorem Connection.Sound.grow {log later : JobLog} {received : List AgentJobEvent}
    (sound : c.Sound log received) (grows : log.events <+: later.events) :
    c.Sound later received := by
  obtain ⟨events, pending, next⟩ := sound.ready.next
  have within := sound.ready.within
  refine ⟨?_, ⟨within.trans grows.length_le, events, pending, next.trans (grows.drop _)⟩,
    sound.terminal⟩
  obtain ⟨more, same⟩ := grows
  rw [← same, List.take_append_of_le_length within]
  exact sound.sent

theorem Invariant.after_step (invariant : Invariant s) (taken : step s action = some t) :
    Invariant t := by
  cases action with
  | grow log =>
      simp only [step] at taken
      split at taken
      · cases taken
        exact ⟨invariant.received.trans ‹_›, fun c open_ => (invariant.connection c open_).grow ‹_›⟩
      · cases taken
  | connect started =>
      simp only [step, invariant.requested] at taken
      split at taken
      · rename_i sequence accepted
        split at accepted
        · cases accepted
        · cases accepted
          cases taken
          refine ⟨invariant.received, fun c open_ => ?_⟩
          cases open_
          have start : s.received = s.log.events.take s.received.length :=
            List.prefix_iff_eq_take.mp invariant.received
          refine ⟨(List.append_nil _).trans start, ⟨invariant.received.length_le, [], rfl,
            List.nil_prefix⟩, fun ends => nomatch ends⟩
      · cases taken
        exact ⟨invariant.received, fun c open_ => nomatch open_⟩
  | turn readings =>
      simp only [step] at taken
      split at taken
      · rename_i c open_
        split at taken
        · cases taken
        · cases taken
          refine ⟨invariant.received, fun c' same => ?_⟩
          cases same
          exact (invariant.connection c open_).turn readings
      · cases taken
  | receive =>
      simp only [step] at taken
      split at taken
      · rename_i c open_
        have sound := invariant.connection c open_
        split at taken
        · rename_i event rest waiting
          cases taken
          have same : (s.received ++ [event]) ++ rest = s.received ++ c.inFlight := by
            rw [waiting, List.append_assoc]
            rfl
          refine ⟨?_, fun c' open' => ?_⟩
          · have start : s.received ++ [event] <+: s.received ++ c.inFlight :=
              same ▸ List.prefix_append _ _
            rw [sound.sent] at start
            exact start.trans (List.take_prefix _ _)
          · cases open'
            exact ⟨same.trans sound.sent, sound.ready, fun ends => same ▸ sound.terminal ends⟩
        · cases taken
      · cases taken
  | disconnect =>
      cases taken
      exact ⟨invariant.received, fun c open_ => nomatch open_⟩

theorem invariant_of_run {C : State → Action → Prop} {log : JobLog}
    (run : Run step C (.initial log) s) : Invariant s :=
  run.invariant ⟨List.nil_prefix, fun _ open_ => nomatch open_⟩
    fun _ _ _ invariant _ taken => invariant.after_step taken

/-- A connection on which nothing is on its way, that has sent so many events. -/
structure Quiet (s : State) (c : Connection) (emitted : Nat) : Prop where
  open_ : s.connection = some c
  goes_on : c.ended = false
  arrived : c.inFlight = []
  started : c.stream.started = 0
  emitted : c.stream.emitted = emitted

/-- Every step is possible at any time. -/
abbrev Anything : State → Action → Prop := fun _ _ => True

/-- The clock stands still, and the client is there. -/
def calm : Readings := ⟨0, false, 0, false, 0⟩

theorem not_limited_calm {stream : AgentJobEventStream} (started : stream.started = 0)
    (few : stream.emitted < 128) :
    ¬stream.limited DEFAULT_AGENT_JOB_CONFIGURATION 0 false := by
  rintro (many | long | gone)
  · have most : 128 ≤ stream.emitted := many
    omega
  · rw [started] at long
    change (120 : ℚ) ≤ 0 - 0 at long
    norm_num at long
  · cases gone

theorem Invariant.deliver_next (invariant : Invariant s) {emitted : Nat}
    (quiet : Quiet s c emitted) (few : emitted < 128)
    (stored : s.received.length < s.log.events.length) :
    ∃ t c', Run step Anything s t ∧ t.log = s.log ∧ Quiet t c' (emitted + 1) ∧
      t.received = s.log.events.take (s.received.length + 1) := by
  have sound := invariant.connection c quiet.open_
  have sent := sound.sent
  rw [quiet.arrived, List.append_nil] at sent
  have position : s.received.length = c.stream.sequence := by
    rw [sent, List.length_take]
    exact Nat.min_eq_left sound.ready.within
  rw [position] at stored ⊢
  have calmly := not_limited_calm quiet.started (quiet.emitted ▸ few)
  obtain ⟨event, rest, next, sends⟩ := anext_delivers c.sleeping calm sound.ready
    (sound.goes_on stored) stored calmly calmly
  have turned : c.turn s.log calm =
      { c with stream := c.stream.sent event rest, sleeping := false, inFlight := [event] } := by
    unfold Connection.turn
    rw [sends, quiet.arrived]
    rfl
  have first : step s (.turn calm) =
      some { s with connection := some (c.turn s.log calm) } := by
    simp only [step, quiet.open_, quiet.goes_on, Bool.false_eq_true, if_false]
  rw [turned] at first
  let c' : Connection :=
    { c with stream := c.stream.sent event rest, sleeping := false, inFlight := [] }
  refine ⟨{ s with received := s.received ++ [event], connection := some c' }, c',
    (Run.start.next trivial first).next (a := .receive) trivial rfl, rfl,
    ⟨rfl, quiet.goes_on, rfl, quiet.started, congrArg (· + 1) quiet.emitted⟩, ?_⟩
  obtain ⟨others, same⟩ := next
  rw [List.take_add, ← sent, ← same]
  rfl

/-- One connection can deliver as many events as its limit lets it. -/
theorem Invariant.deliver (invariant : Invariant s) {emitted : Nat} (quiet : Quiet s c emitted)
    (count : Nat) (few : emitted + count ≤ 128) :
    ∃ t, Run step Anything s t ∧ t.log = s.log ∧
      t.received = s.log.events.take (s.received.length + count) := by
  induction count generalizing s c emitted with
  | zero => exact ⟨s, .start, rfl, List.prefix_iff_eq_take.mp invariant.received⟩
  | succ count ih =>
      by_cases stored : s.received.length < s.log.events.length
      · obtain ⟨middle, c', run, log, open_, received⟩ :=
          invariant.deliver_next quiet (by omega) stored
        have invariant' : Invariant middle :=
          run.invariant invariant fun _ _ _ kept _ taken => kept.after_step taken
        have length : middle.received.length = s.received.length + 1 := by
          rw [received, List.length_take]
          omega
        obtain ⟨t, more, logs, receives⟩ := ih invariant' open_ (by omega)
        refine ⟨t, run.trans more, logs.trans log, ?_⟩
        rw [receives, log, length]
        congr 1
        omega
      · -- everything stored has been received
        have whole : s.received = s.log.events :=
          invariant.received.eq_of_length_le (by omega)
        refine ⟨s, .start, rfl, ?_⟩
        rw [List.take_of_length_le (by omega)]
        exact whole

/-- A connection that is accepted can deliver what its limit lets it. -/
theorem Invariant.reconnect (invariant : Invariant s) (few : s.received.length ≤ 128) (count : Nat)
    (limit : count ≤ 128) : ∃ t, Run step Anything s t ∧ t.log = s.log ∧
      t.received = s.log.events.take (s.received.length + count) := by
  have accepted := invariant.requested
  rw [if_neg (by omega)] at accepted
  have connects : step s (.connect 0) = some { s with
      connection := some ⟨.start s.received.length 0, false, false, []⟩ } := by
    simp only [step, accepted, Int.toNat_natCast]
  obtain ⟨t, more, same, received⟩ := (invariant.after_step connects).deliver
    (⟨rfl, rfl, rfl, rfl, rfl⟩ : Quiet _ _ 0) count (by omega)
  exact ⟨t, (Run.start.next trivial connects).trans more, same, received⟩

/-- The client receives 1, 2, 3, ... of the log and nothing after a terminal event; a connection
within its limits sends what is stored; a reconnection is refused where more than 128 events were
received, and elsewhere one connection can deliver the next 128. -/
theorem stream_replays_log (log : JobLog) (s : State) (run : Run step Anything (.initial log) s) :
    s.received.map (·.sequence) = List.range' 1 s.received.length ∧
    s.received <+: s.log.events ∧
    (∀ before event after, s.received = before ++ event :: after →
      event.kind.terminal = true → after = []) ∧
    (∀ c readings, s.connection = some c → c.ended = false →
      c.stream.sequence < s.log.events.length →
      ¬c.stream.limited DEFAULT_AGENT_JOB_CONFIGURATION readings.entered
        readings.enteredDisconnected →
      ¬c.stream.limited DEFAULT_AGENT_JOB_CONFIGURATION readings.now readings.disconnected →
      ∃ event t c', s.log.events[c.stream.sequence]? = some event ∧
        step s (.turn readings) = some t ∧ t.connection = some c' ∧
        c'.inFlight = c.inFlight ++ [event]) ∧
    (requestedSequence s.lastEventId =
      if 128 < s.received.length then .error (.status 422 LAST_EVENT_ID_INVALID)
      else .ok (s.received.length : Int)) ∧
    (s.received.length ≤ 128 → ∃ t, Run step Anything s t ∧ t.log = s.log ∧
      t.received = s.log.events.take (s.received.length + 128)) ∧
    ∀ text : String,
      (∀ c ∈ text.toList, Text.isDigits [c] = true → (Text.digitValue? c).isSome = true) →
      requestedSequence (some text) = .error (.status 422 LAST_EVENT_ID_INVALID) ∨
        ∃ k : Nat, k ≤ 128 ∧ requestedSequence (some text) = .ok (k : Int) := by
  have invariant := invariant_of_run run
  refine ⟨s.log.numbered.of_prefix invariant.received, invariant.received, ?_, ?_,
    invariant.requested, ?_, fun text decimal => requestedSequence_of_decimal decimal⟩
  · intro before event after same terminal
    obtain ⟨rest, whole⟩ := invariant.received
    rw [same, List.append_assoc, List.cons_append] at whole
    exact (List.append_eq_nil_iff.mp (s.log.ended before event _ whole.symm terminal)).1
  · intro c readings open_ goes_on stored entered within
    have sound := invariant.connection c open_
    obtain ⟨event, rest, next, sends⟩ := anext_delivers c.sleeping readings sound.ready
      (sound.goes_on stored) stored entered within
    have taken : step s (.turn readings) =
        some { s with connection := some (c.turn s.log readings) } := by
      simp only [step, open_, goes_on, Bool.false_eq_true, if_false]
    refine ⟨event, _, _, getElem?_of_next next, taken, rfl, ?_⟩
    unfold Connection.turn
    rw [sends]
  · exact fun few => invariant.reconnect few 128 (Nat.le_refl 128)

end Runs

namespace EventStreamSamples

/-- The event of a number in a log that is claimed and requeued again and again. -/
def sampleEvent (index : Nat) : AgentJobEvent where
  eventId := ⟨BitVec.ofNat 128 index⟩
  sequence := index + 1
  jobId := ⟨1⟩
  kind := if index % 2 = 0 then .queued else .running
  occurredAt := ⟨.utc, 0⟩
  payload := []
  valid := AgentJobEventFields.check_eq_ok.mpr ⟨Nat.succ_pos index, rfl, rfl, rfl⟩

def sampleLog (length : Nat) : JobLog where
  events := (List.range length).map sampleEvent
  numbered := by
    unfold Numbered
    rw [List.map_map, List.length_map, List.length_range, List.range'_eq_map_range]
    apply List.map_congr_left
    intro index _
    exact Nat.add_comm index 1
  ended before event after same terminal := by
    have member : event ∈ (List.range length).map sampleEvent := by
      rw [same]
      exact List.mem_append_right _ List.mem_cons_self
    obtain ⟨index, -, rfl⟩ := List.mem_map.mp member
    change (if index % 2 = 0 then AgentJobEventKind.queued else .running).terminal = true at terminal
    split at terminal <;> cases terminal

/-- A client that received 129 of 130 events is refused the last one. -/
theorem reconnection_refused :
    ∃ s, Run step Anything (.initial (sampleLog 130)) s ∧ s.received.length = 129 ∧
      s.log.events.length = 130 ∧
      requestedSequence s.lastEventId = .error (.status 422 LAST_EVENT_ID_INVALID) := by
  have start : Invariant (.initial (sampleLog 130)) := invariant_of_run (C := Anything) .start
  have length : (sampleLog 130).events.length = 130 := by
    rw [sampleLog, List.length_map, List.length_range]
  obtain ⟨s, first, log, received⟩ := start.reconnect (Nat.zero_le 128) 128 (Nat.le_refl 128)
  have half : s.received.length = 128 := by
    rw [received, List.length_take]
    change min (0 + 128) (sampleLog 130).events.length = 128
    omega
  have middle : Invariant s := invariant_of_run first
  obtain ⟨t, second, log', received'⟩ := middle.reconnect (by omega) 1 (by omega)
  have run := first.trans second
  have total : t.log.events.length = 130 := by
    rw [log', log]
    exact length
  have count : t.received.length = 129 := by
    rw [received', List.length_take, ← log', total, half]
    rfl
  refine ⟨t, run, count, total, ?_⟩
  rw [(invariant_of_run run).requested, if_pos (by omega)]

/-- Two of three events are received over two connections. -/
theorem stream_replays_log_sample :
    ∃ s, Run step Anything (.initial (sampleLog 3)) s ∧ s.received.length = 2 ∧
      s.received <+: s.log.events ∧
      ∃ t, Run step Anything s t ∧ t.log = s.log ∧
        t.received = s.log.events.take (s.received.length + 128) := by
  obtain ⟨s, run, length⟩ := Run.exists_of_checked step Anything (.initial (sampleLog 3))
    [.connect 0, .turn calm, .turn calm, .receive, .disconnect, .connect 0, .turn calm, .receive]
    (fun s => s.received.length = 2) (by decide +kernel)
  have two : s.received.length = 2 := of_decide_eq_true length
  obtain ⟨-, start, -, -, -, more, -⟩ := stream_replays_log (sampleLog 3) s run
  exact ⟨s, run, two, start, more (by omega)⟩

end EventStreamSamples

end Cinegraph.Api
