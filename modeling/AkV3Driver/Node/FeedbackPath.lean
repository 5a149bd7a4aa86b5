import AkV3Driver.Lib.Mailbox
import AkV3Driver.Node.Driver

/-!
# The feedback path is a mailbox

Seen from the bus, a node is a drained mailbox: statuses are its items, extended
positions its side values, and a disabling feedback configuration forgets the cached
one. Commands and the other services do not touch it.
-/

namespace AkV3Driver
open Mailbox (Op)
open Protocol (StatusFrame ExtendedPositionFrame buildCanId funcIdStatus decodeStatusFrame)

abbrev FeedbackOp := Op StatusFrame ExtendedPositionFrame

def feedbackOps (canId : UInt8) : Event → List FeedbackOp
  | .rx read => (feedbackOf canId read).toList.map .arrive
  | .drain => [.drain]
  | .setFeedbackConfig addExtendedPositionFrame _ _ =>
    if addExtendedPositionFrame then [] else [.forget]
  | _ => []

def Event.feedback (canId : UInt8) : Event → Option (StatusFrame ⊕ ExtendedPositionFrame)
  | .rx read => feedbackOf canId read
  | _ => none

/-- The statuses and extended positions received in a run, in reception order. -/
def received (canId : UInt8) (es : List Event) : List (StatusFrame ⊕ ExtendedPositionFrame) :=
  es.filterMap (Event.feedback canId)

def publishedState (cfg : NodeConfig) (p : StatusFrame × Option ExtendedPositionFrame) :
    MotorState := motorState cfg (p.2.map (·.positionDeg)) p.1

structure Refines (cfg : NodeConfig) (s : NodeState)
    (m : Mailbox StatusFrame ExtendedPositionFrame) : Prop where
  statusQueue : s.statusQueue = m.items
  extPositionQueue : s.extPositionQueue = m.sides
  lastExtendedPositionDeg : s.lastExtendedPositionDeg = m.cached.map (·.positionDeg)
  states : s.states = m.delivered.map (publishedState cfg)
  diagnostics : s.diagnostics = m.delivered.map fun p => diagnosticStatus cfg p.1

section Received
variable (canId : UInt8) (e : Event) (es : List Event)

theorem received_cons :
    received canId (e :: es) = (e.feedback canId).toList ++ received canId es := by
  cases h : e.feedback canId <;> simp [received, h]

theorem received_append (es es' : List Event) :
    received canId (es ++ es') = received canId es ++ received canId es' :=
  List.filterMap_append

theorem arrivals_step :
    Mailbox.arrivals (feedbackOps canId e) = (e.feedback canId).toList := by
  cases e with
  | rx read => cases h : feedbackOf canId read <;> simp [feedbackOps, Event.feedback, h]
  | setFeedbackConfig add single ok => cases add <;> rfl
  | _ => rfl

theorem arrivals_feedbackOps :
    Mailbox.arrivals (es.flatMap (feedbackOps canId)) = received canId es := by
  induction es with
  | nil => rfl
  | cons e es ih =>
    rw [List.flatMap_cons, Mailbox.arrivals_append, arrivals_step, ih, received_cons]

end Received

/-- What an event does to the feedback path: an arrival, a drain, a disabling call, or
nothing. -/
theorem step_cases (conv : FloatCast) (cfg : NodeConfig) (e : Event) :
    (∃ x, e.feedback cfg.canId = some x ∧ feedbackOps cfg.canId e = [.arrive x] ∧
      ∀ s, step conv cfg s e = push s x) ∨
    e = .drain ∨ (∃ single ok, e = .setFeedbackConfig false single ok) ∨
    (e.feedback cfg.canId = none ∧ feedbackOps cfg.canId e = [] ∧ ∃ frames responses, ∀ s,
      step conv cfg s e =
        { s with sent := s.sent ++ frames, responses := s.responses ++ responses }) := by
  have hquiet {s s' : NodeState} (h : s' = s) :
      s' = { s with sent := s.sent ++ [], responses := s.responses ++ [] } := by simp [h]
  cases e with
  | rx read =>
    cases hread : feedbackOf cfg.canId read with
    | some x =>
      refine .inl ⟨x, hread, by simp [feedbackOps, hread], fun s => ?_⟩
      simp [step, rxThreadMain_eq, hread]
    | none =>
      refine .inr (.inr (.inr ⟨hread, by simp [feedbackOps, hread], [], [], fun s => ?_⟩))
      exact hquiet (by simp [step, rxThreadMain_eq, hread])
  | drain => exact .inr (.inl rfl)
  | command msg ok =>
    refine .inr (.inr (.inr ⟨rfl, rfl, ?_⟩))
    cases hmode : CommandMode.ofByte msg.mode with
    | none => exact ⟨[], [], fun s => hquiet (by simp [step, onCommand, hmode])⟩
    | some mode =>
      exact ⟨[(commandFrame conv cfg mode msg, ok)], [],
        fun s => by simp [step, onCommand, hmode]⟩
  | setFeedbackConfig add single ok =>
    cases add with
    | true => exact .inr (.inr (.inr ⟨rfl, rfl, _, _, fun s => rfl⟩))
    | false => exact .inr (.inr (.inl ⟨single, ok, rfl⟩))
  | setOrigin permanent ok => exact .inr (.inr (.inr ⟨rfl, rfl, _, _, fun s => rfl⟩))
  | disable ok => exact .inr (.inr (.inr ⟨rfl, rfl, _, _, fun s => rfl⟩))

theorem applyExtPositions_eq (c : Option ExtendedPositionFrame)
    (exts : List ExtendedPositionFrame) :
    applyExtPositions (c.map (·.positionDeg)) exts =
      (Mailbox.latest c exts).map (·.positionDeg) := by
  induction exts generalizing c with
  | nil => rfl
  | cons ext exts ih => exact ih (some ext)

section Refinement
variable (conv : FloatCast) (cfg : NodeConfig)
  {s : NodeState} {m : Mailbox StatusFrame ExtendedPositionFrame}

theorem drain_refines (h : Refines cfg s m) :
    Refines cfg (drainRxQueueAndPublish cfg s) (Mailbox.step m .drain) := by
  obtain ⟨hq, hx, hl, hs, hd⟩ := h
  have hlast : applyExtPositions s.lastExtendedPositionDeg s.extPositionQueue =
      (Mailbox.latest m.cached m.sides).map (·.positionDeg) := by
    rw [hl, hx]
    exact applyExtPositions_eq m.cached m.sides
  refine ⟨rfl, rfl, hlast, ?_, ?_⟩
  · simp [drainRxQueueAndPublish, Mailbox.step, hs, hq, hlast, publishedState]
  · simp [drainRxQueueAndPublish, Mailbox.step, hd, hq]

theorem push_refines (h : Refines cfg s m) (x : StatusFrame ⊕ ExtendedPositionFrame) :
    Refines cfg (push s x) (Mailbox.step m (.arrive x)) := by
  obtain ⟨hq, hx, hl, hs, hd⟩ := h
  cases x with
  | inl status => exact ⟨by simp [push, Mailbox.step, hq], hx, hl, hs, hd⟩
  | inr extPos => exact ⟨hq, by simp [push, Mailbox.step, hx], hl, hs, hd⟩

theorem step_refines (e : Event) (h : Refines cfg s m) :
    Refines cfg (step conv cfg s e) (Runs.run Mailbox.step m (feedbackOps cfg.canId e)) := by
  rcases step_cases conv cfg e with ⟨x, -, hops, hstep⟩ | rfl | ⟨single, ok, rfl⟩ |
    ⟨-, hops, frames, responses, hstep⟩
  · rw [hstep, hops]
    exact push_refines cfg h x
  · exact drain_refines cfg h
  · exact ⟨h.1, h.2, rfl, h.4, h.5⟩
  · rw [hstep, hops]
    exact ⟨h.1, h.2, h.3, h.4, h.5⟩

theorem run_refines (es : List Event) (h : Refines cfg s m) :
    Refines cfg (run conv cfg s es)
      (Runs.run Mailbox.step m (es.flatMap (feedbackOps cfg.canId))) :=
  Runs.run_simulates (feedbackOps cfg.canId) (fun _ _ e => step_refines conv cfg e) es h

theorem init_refines : Refines cfg {} (Mailbox.drained none []) := ⟨rfl, rfl, rfl, rfl, rfl⟩

/-- What a run has published is a prefix of what it received. -/
theorem run_conserves (es : List Event) :
    ∃ m, Refines cfg (run conv cfg {} es) m ∧
      m.delivered.map Prod.fst ++ m.items = Mailbox.itemsOf (received cfg.canId es) := by
  refine ⟨_, run_refines conv cfg es (init_refines cfg), ?_⟩
  rw [Mailbox.run_conserves, arrivals_feedbackOps]
  rfl

end Refinement

section Receive
variable (canId : UInt8)

def zeroRead (funcId : UInt8) : SocketRead :=
  .frame ⟨buildCanId funcId canId ||| canEffFlag, 8, fun _ => 0, by decide⟩

theorem receive_zeroRead (funcId : UInt8) :
    CanSocket.receive {} (zeroRead canId funcId) =
      some ⟨buildCanId funcId canId, 8, fun _ => 0⟩ := by
  have hlt := Protocol.buildCanId_lt funcId canId
  have hraw : CanSocket.toRaw ⟨buildCanId funcId canId, 8, fun _ => 0⟩ =
      some ⟨buildCanId funcId canId ||| canEffFlag, 8, fun _ => 0, by decide⟩ := by
    simp [CanSocket.toRaw]
  simpa [zeroRead] using CanSocket.receive_toRaw hraw (hlt.trans (by omega)) {}

theorem feedbackOf_zeroRead_status :
    ∃ status, feedbackOf canId (zeroRead canId funcIdStatus) = some (.inl status) := by
  have hs : (decodeStatusFrame ⟨buildCanId funcIdStatus canId, 8, fun _ => 0⟩ canId).isSome :=
    Protocol.decodeStatusFrame_isSome.mpr ⟨rfl, UInt8.le_refl 8⟩
  obtain ⟨status, hs⟩ := Option.isSome_iff_exists.mp hs
  exact ⟨status, by simp [feedbackOf, receive_zeroRead, hs]⟩

theorem run_zeroRead_drain (conv : FloatCast) (cfg : NodeConfig) :
    ∃ status, received cfg.canId [.rx (zeroRead cfg.canId funcIdStatus), .drain] = [.inl status] ∧
      ∀ s, (run conv cfg s [.rx (zeroRead cfg.canId funcIdStatus), .drain]).statusQueue = [] ∧
        (run conv cfg s [.rx (zeroRead cfg.canId funcIdStatus), .drain]).states =
          s.states ++ (s.statusQueue ++ [status]).map
            (motorState cfg (applyExtPositions s.lastExtendedPositionDeg s.extPositionQueue)) := by
  obtain ⟨status, hstatus⟩ := feedbackOf_zeroRead_status cfg.canId
  refine ⟨status, by simp [received, Event.feedback, hstatus], fun s => ?_⟩
  simp [run, step, rxThreadMain_eq, hstatus, push, drainRxQueueAndPublish]

end Receive

end AkV3Driver
