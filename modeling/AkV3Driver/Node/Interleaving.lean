import AkV3Driver.Node.FeedbackPath

/-!
# The drain callback in steps

The drain swaps both queues under the lock, applies the swapped extended positions,
and publishes the swapped statuses one at a time, while the receive thread goes on
pushing. The threaded machine takes these steps separately, in any order the guards
allow. No status is lost, duplicated or reordered on the way, and an executor that
runs one callback at a time is the machine with an atomic drain.
-/

namespace AkV3Driver
open Protocol (StatusFrame ExtendedPositionFrame decodeStatusFrame)

/-- The node and the local variables of a drain in progress. -/
structure ThreadedState where
  node : NodeState := {}
  statuses : List StatusFrame := []
  extPositions : List ExtendedPositionFrame := []

inductive ThreadedAction
  | swap
  | applyExt
  | publish
  | event (e : Event)

def ThreadedState.Idle (t : ThreadedState) : Prop := t.statuses = [] ∧ t.extPositions = []

instance (t : ThreadedState) : Decidable t.Idle := inferInstanceAs (Decidable (_ ∧ _))

section Machine
variable (conv : FloatCast) (cfg : NodeConfig)

def publishOne (s : NodeState) (status : StatusFrame) : NodeState :=
  { s with
    states := s.states ++ [motorState cfg s.lastExtendedPositionDeg status]
    diagnostics := s.diagnostics ++ [diagnosticStatus cfg status] }

def threadedStep (t : ThreadedState) : ThreadedAction → Option ThreadedState
  | .swap =>
    if t.Idle then
      some ⟨{ t.node with statusQueue := [], extPositionQueue := [] }, t.node.statusQueue,
        t.node.extPositionQueue⟩
    else none
  | .applyExt =>
    match t.extPositions with
    | [] => none
    | ext :: exts =>
      some { t with
        node := { t.node with lastExtendedPositionDeg := some ext.positionDeg }
        extPositions := exts }
  | .publish =>
    match t.extPositions, t.statuses with
    | [], status :: statuses =>
      some { t with node := publishOne cfg t.node status, statuses := statuses }
    | _, _ => none
  | .event .drain => none
  | .event e => some { t with node := step conv cfg t.node e }

end Machine

structure Reading where
  velocity : ℚ
  current : ℚ
  estimatedTorque : ℚ
  temperatureC : Int8
  errorCode : UInt8

def MotorState.reading (state : MotorState) : Reading :=
  ⟨state.velocity, state.current, state.estimatedTorque, state.temperatureC, state.errorCode⟩

def convert (cfg : NodeConfig) (status : StatusFrame) : Reading where
  velocity := cfg.sign * cfg.erpmToRadPerSec status.speedErpm
  current := cfg.sign * status.currentA
  estimatedTorque := cfg.sign * status.currentA * cfg.motorSpec.torqueCoefficientNmPerA
  temperatureC := status.temperatureC
  errorCode := status.errorCode

def acceptedStatus (canId : UInt8) : Event → Option StatusFrame
  | .rx read => (CanSocket.receive {} read).bind fun frame => decodeStatusFrame frame canId
  | _ => none

def acceptedStatuses (canId : UInt8) (acts : List ThreadedAction) : List StatusFrame :=
  acts.filterMap fun | .event e => acceptedStatus canId e | _ => none

def ReportsFault (state : MotorState) (diag : DiagnosticStatus) : Prop :=
  diag.level = .error ↔ state.errorCode ≠ 0

structure Conserved (cfg : NodeConfig) (acts : List ThreadedAction) (t : ThreadedState) : Prop where
  readings : t.node.states.map MotorState.reading ++ t.statuses.map (convert cfg) ++
    t.node.statusQueue.map (convert cfg) = (acceptedStatuses cfg.canId acts).map (convert cfg)
  diagnostics : List.Forall₂ ReportsFault t.node.states t.node.diagnostics

section Conservation
variable (conv : FloatCast) (cfg : NodeConfig)

theorem reading_motorState (last : Option ℚ) (status : StatusFrame) :
    (motorState cfg last status).reading = convert cfg status := rfl

theorem reportsFault (last : Option ℚ) (status : StatusFrame) :
    ReportsFault (motorState cfg last status) (diagnosticStatus cfg status) := by
  simp [ReportsFault, motorState, diagnosticStatus]

theorem acceptedStatus_eq (canId : UInt8) (e : Event) :
    acceptedStatus canId e = (e.feedback canId).bind Sum.getLeft? := by
  cases e with
  | rx read => exact (feedbackOf_left canId read).symm
  | _ => rfl

theorem step_statusPath (s : NodeState) (e : Event) (he : e ≠ .drain) :
    (step conv cfg s e).states = s.states ∧ (step conv cfg s e).diagnostics = s.diagnostics ∧
      (step conv cfg s e).statusQueue = s.statusQueue ++ (acceptedStatus cfg.canId e).toList := by
  rcases step_cases conv cfg e with ⟨x, hx, -, hstep⟩ | rfl | ⟨single, ok, rfl⟩ |
    ⟨hx, -, frames, responses, hstep⟩
  · rw [hstep, acceptedStatus_eq, hx]
    cases x <;> simp [push]
  · exact absurd rfl he
  · simp [step, onSetFeedbackConfig, acceptedStatus]
  · rw [hstep, acceptedStatus_eq, hx]
    simp

theorem threadedStep_event {t t' : ThreadedState} {e : Event}
    (h : threadedStep conv cfg t (.event e) = some t') :
    e ≠ .drain ∧ t' = { t with node := step conv cfg t.node e } := by
  cases e with
  | drain => simp [threadedStep] at h
  | _ => exact ⟨by simp, (Option.some.inj h).symm⟩

theorem threadedStep_swap {t t' : ThreadedState} (h : threadedStep conv cfg t .swap = some t') :
    t.Idle ∧ t' = ⟨{ t.node with statusQueue := [], extPositionQueue := [] }, t.node.statusQueue,
      t.node.extPositionQueue⟩ := by
  simp only [threadedStep] at h
  split_ifs at h with hi
  exact ⟨hi, (Option.some.inj h).symm⟩

theorem threadedStep_applyExt {t t' : ThreadedState}
    (h : threadedStep conv cfg t .applyExt = some t') :
    ∃ ext exts, t.extPositions = ext :: exts ∧
      t' = ⟨{ t.node with lastExtendedPositionDeg := some ext.positionDeg }, t.statuses, exts⟩ := by
  simp only [threadedStep] at h
  split at h
  · cases h
  · next ext exts hx => exact ⟨ext, exts, hx, (Option.some.inj h).symm⟩

theorem threadedStep_publish {t t' : ThreadedState}
    (h : threadedStep conv cfg t .publish = some t') :
    ∃ status statuses, t.extPositions = [] ∧ t.statuses = status :: statuses ∧
      t' = ⟨publishOne cfg t.node status, statuses, []⟩ := by
  simp only [threadedStep] at h
  split at h
  · next status statuses hx hs =>
    exact ⟨status, statuses, hx, hs, by simpa [hx] using h.symm⟩
  · cases h

theorem conserved_step (acts : List ThreadedAction) (t : ThreadedState) (act : ThreadedAction)
    (t' : ThreadedState) (hc : Conserved cfg acts t) (h : threadedStep conv cfg t act = some t') :
    Conserved cfg (acts ++ [act]) t' := by
  obtain ⟨hr, hd⟩ := hc
  cases act with
  | swap =>
    obtain ⟨⟨hs, -⟩, rfl⟩ := threadedStep_swap conv cfg h
    refine ⟨?_, hd⟩
    simpa [acceptedStatuses, hs] using hr
  | applyExt =>
    obtain ⟨ext, exts, -, rfl⟩ := threadedStep_applyExt conv cfg h
    exact ⟨by simpa [acceptedStatuses] using hr, hd⟩
  | publish =>
    obtain ⟨status, statuses, -, hs, rfl⟩ := threadedStep_publish conv cfg h
    refine ⟨?_, ?_⟩
    · simpa [acceptedStatuses, publishOne, reading_motorState, hs] using hr
    · exact List.rel_append hd (.cons (reportsFault cfg _ status) .nil)
  | event e =>
    obtain ⟨he, rfl⟩ := threadedStep_event conv cfg h
    obtain ⟨hst, hdg, hq⟩ := step_statusPath conv cfg t.node e he
    refine ⟨?_, by rwa [hst, hdg]⟩
    have happ : acceptedStatuses cfg.canId (acts ++ [.event e]) =
        acceptedStatuses cfg.canId acts ++ (acceptedStatus cfg.canId e).toList := by
      cases ha : acceptedStatus cfg.canId e <;> simp [acceptedStatuses, ha]
    rw [happ, hst, hq, List.map_append, List.map_append, ← hr]
    simp

end Conservation

theorem statuses_conserved (conv : FloatCast) (cfg : NodeConfig) (acts : List ThreadedAction)
    (t : ThreadedState) (h : Runs.guardedRun (threadedStep conv cfg) {} acts = some t) :
    t.node.states.map MotorState.reading ++ t.statuses.map (convert cfg) ++
        t.node.statusQueue.map (convert cfg) =
      (acceptedStatuses cfg.canId acts).map (convert cfg) ∧
    List.Forall₂ ReportsFault t.node.states t.node.diagnostics := by
  have hc : Conserved cfg ([] ++ acts) t :=
    Runs.guardedRun_history (conserved_step conv cfg) [] ⟨rfl, .nil⟩ h
  exact ⟨hc.readings, hc.diagnostics⟩

theorem statuses_conserved_in_flight :
    ∃ t, Runs.guardedRun (threadedStep .wrapping (ak80Node true)) {}
        [.event (.rx (.frame ⟨0x80002901, 8, ![0, 0, 0, 1, 0, 2, 30, 4], by decide⟩)), .swap,
          .event (.rx (.frame ⟨0x80002901, 8, ![0, 0, 0, 2, 0, 4, 30, 0], by decide⟩)), .publish] =
        some t ∧
      t.node.states.map MotorState.reading ++ t.statuses.map (convert (ak80Node true)) ++
          t.node.statusQueue.map (convert (ak80Node true)) =
        (acceptedStatuses 1
          [.event (.rx (.frame ⟨0x80002901, 8, ![0, 0, 0, 1, 0, 2, 30, 4], by decide⟩)), .swap,
            .event (.rx (.frame ⟨0x80002901, 8, ![0, 0, 0, 2, 0, 4, 30, 0], by decide⟩)),
            .publish]).map (convert (ak80Node true)) ∧
      List.Forall₂ ReportsFault t.node.states t.node.diagnostics :=
  ⟨_, rfl, statuses_conserved .wrapping (ak80Node true) _ _ rfl⟩

section Executor
variable (conv : FloatCast) (cfg : NodeConfig)

def Event.isCallback : Event → Bool
  | .rx _ => false
  | _ => true

/-- A single-threaded executor starts a callback only after the previous one returned. -/
def executorStep (t : ThreadedState) : ThreadedAction → Option ThreadedState
  | .event e => if e.isCallback ∧ ¬t.Idle then none else threadedStep conv cfg t (.event e)
  | act => threadedStep conv cfg t act

def atomicEvents : ThreadedAction → List Event
  | .swap => [.drain]
  | .event e => [e]
  | _ => []

/-- The node after the drain in progress has published its batch. -/
def ThreadedState.finish (t : ThreadedState) : NodeState :=
  let last := applyExtPositions t.node.lastExtendedPositionDeg t.extPositions
  { t.node with
    lastExtendedPositionDeg := last
    states := t.node.states ++ t.statuses.map (motorState cfg last)
    diagnostics := t.node.diagnostics ++ t.statuses.map (diagnosticStatus cfg) }

theorem finish_of_idle {t : ThreadedState} (h : t.Idle) : t.finish cfg = t.node := by
  obtain ⟨hs, hx⟩ := h
  simp [ThreadedState.finish, hs, hx, applyExtPositions]

theorem finish_rx (t : ThreadedState) (read : SocketRead) :
    ({ t with node := rxThreadMain cfg t.node read } : ThreadedState).finish cfg =
      rxThreadMain cfg (t.finish cfg) read := by
  simp only [rxThreadMain_eq]
  cases feedbackOf cfg.canId read with
  | none => rfl
  | some x => cases x <;> rfl

theorem executorStep_refines (t : ThreadedState) (s : NodeState) (act : ThreadedAction)
    (t' : ThreadedState) (hts : t.finish cfg = s) (h : executorStep conv cfg t act = some t') :
    t'.finish cfg = Runs.run (step conv cfg) s (atomicEvents act) := by
  subst hts
  cases act with
  | swap =>
    obtain ⟨hidle, rfl⟩ := threadedStep_swap conv cfg h
    rw [finish_of_idle cfg hidle]
    rfl
  | applyExt =>
    obtain ⟨ext, exts, hx, rfl⟩ := threadedStep_applyExt conv cfg h
    simp [ThreadedState.finish, hx, applyExtPositions, atomicEvents]
  | publish =>
    obtain ⟨status, statuses, hx, hs, rfl⟩ := threadedStep_publish conv cfg h
    simp [ThreadedState.finish, hx, hs, applyExtPositions, atomicEvents, publishOne]
  | event e =>
    simp only [executorStep] at h
    split_ifs at h with hguard
    obtain ⟨-, rfl⟩ := threadedStep_event conv cfg h
    cases e with
    | rx read => exact finish_rx cfg t read
    | _ =>
      have hidle : t.Idle := by simpa [Event.isCallback] using hguard
      rw [finish_of_idle cfg hidle]
      exact finish_of_idle cfg (t := { t with node := _ }) hidle

/-- Under the executor the drain is atomic: finishing the batch in progress gives a
state of the machine with whole drains. -/
theorem executor_refines {acts : List ThreadedAction} {t : ThreadedState}
    (h : Runs.guardedRun (executorStep conv cfg) {} acts = some t) :
    t.finish cfg = run conv cfg {} (acts.flatMap atomicEvents) :=
  Runs.guardedRun_simulates atomicEvents (executorStep_refines conv cfg) rfl h

def drainActions (s : NodeState) : List ThreadedAction :=
  [.swap] ++ List.replicate s.extPositionQueue.length .applyExt ++
    List.replicate s.statusQueue.length .publish

theorem applyExts_execute (s : NodeState) (statuses : List StatusFrame)
    (exts : List ExtendedPositionFrame) :
    Runs.guardedRun (executorStep conv cfg) ⟨s, statuses, exts⟩
        (List.replicate exts.length .applyExt) =
      some ⟨{ s with
        lastExtendedPositionDeg := applyExtPositions s.lastExtendedPositionDeg exts },
        statuses, []⟩ := by
  induction exts generalizing s with
  | nil => rfl
  | cons ext exts ih =>
    simp only [List.length_cons, List.replicate_succ]
    exact ih { s with lastExtendedPositionDeg := some ext.positionDeg }

theorem publishes_execute (s : NodeState) (statuses : List StatusFrame) :
    Runs.guardedRun (executorStep conv cfg) ⟨s, statuses, []⟩
        (List.replicate statuses.length .publish) =
      some ⟨{ s with
        states := s.states ++ statuses.map (motorState cfg s.lastExtendedPositionDeg)
        diagnostics := s.diagnostics ++ statuses.map (diagnosticStatus cfg) }, [], []⟩ := by
  induction statuses generalizing s with
  | nil => simp [Runs.guardedRun]
  | cons status statuses ih =>
    simp only [List.length_cons, List.replicate_succ]
    refine (ih (publishOne cfg s status)).trans ?_
    simp [publishOne]

theorem drain_executes (s : NodeState) :
    Runs.guardedRun (executorStep conv cfg) ⟨s, [], []⟩ (drainActions s) =
      some ⟨drainRxQueueAndPublish cfg s, [], []⟩ := by
  have hx := applyExts_execute conv cfg { s with statusQueue := [], extPositionQueue := [] }
    s.statusQueue s.extPositionQueue
  have hswap : Runs.guardedRun (executorStep conv cfg) ⟨s, [], []⟩ [.swap] =
      some ⟨{ s with statusQueue := [], extPositionQueue := [] }, s.statusQueue,
        s.extPositionQueue⟩ := rfl
  simp only [drainActions, Runs.guardedRun_append, hswap, Option.bind_some, hx]
  exact publishes_execute conv cfg _ s.statusQueue

theorem executorStep_event (s : NodeState) {e : Event} (he : e ≠ .drain) :
    executorStep conv cfg ⟨s, [], []⟩ (.event e) = some ⟨step conv cfg s e, [], []⟩ := by
  cases e with
  | drain => exact absurd rfl he
  | _ => rfl

/-- Conversely every run with whole drains is one that the executor can perform. -/
theorem run_executes (s : NodeState) (es : List Event) :
    ∃ acts, Runs.guardedRun (executorStep conv cfg) ⟨s, [], []⟩ acts =
      some ⟨run conv cfg s es, [], []⟩ := by
  induction es generalizing s with
  | nil => exact ⟨[], rfl⟩
  | cons e es ih =>
    obtain ⟨acts, hacts⟩ := ih (step conv cfg s e)
    by_cases he : e = .drain
    · subst he
      refine ⟨drainActions s ++ acts, ?_⟩
      rw [Runs.guardedRun_append, drain_executes]
      exact hacts
    · refine ⟨.event e :: acts, ?_⟩
      simp only [Runs.guardedRun, executorStep_event conv cfg s he, Option.bind_some]
      exact hacts

end Executor

end AkV3Driver
