import AkV3Driver.Node.Interleaving

/-!
# Two paths that do not meet

What a node publishes depends on what it received and on when it drained; what it sends
and answers depends on the commands and the service calls. The one place where the paths
meet is the request that turns the extended positions off.
-/

namespace AkV3Driver

/-- The actions that the published messages depend on. -/
def ThreadedAction.onFeedbackPath : ThreadedAction → Bool
  | .event (.command _ _) => false
  | .event (.setOrigin _ _) => false
  | .event (.setFeedbackConfig add _ _) => !add
  | .event (.disable _) => false
  | _ => true

def ThreadedAction.onCommandPath : ThreadedAction → Bool
  | .event (.rx _) => false
  | .event _ => true
  | _ => false

/-- The node without a record of what it sent and answered. -/
def ThreadedState.feedback (t : ThreadedState) : ThreadedState :=
  { t with node := { t.node with sent := [], responses := [] } }

def ThreadedState.outputs (t : ThreadedState) : List (Protocol.CanFrame × Bool) ×
    List ServiceResponse := (t.node.sent, t.node.responses)

structure SameOutputs (s s' : NodeState) : Prop where
  states : s'.states = s.states
  diagnostics : s'.diagnostics = s.diagnostics
  sent : s'.sent = s.sent
  responses : s'.responses = s.responses
  lastExtendedPositionDeg : s'.lastExtendedPositionDeg = s.lastExtendedPositionDeg

section Paths
variable (conv : FloatCast) (cfg : NodeConfig)

theorem threadedStep_of_ne_drain {e : Event} (he : e ≠ .drain) (t : ThreadedState) :
    threadedStep conv cfg t (.event e) = some { t with node := step conv cfg t.node e } := by
  cases e with
  | drain => exact absurd rfl he
  | _ => rfl

theorem threadedStep_feedback (t : ThreadedState) (a : ThreadedAction) :
    (threadedStep conv cfg t a).map ThreadedState.feedback =
      (threadedStep conv cfg t.feedback a).map ThreadedState.feedback := by
  cases a with
  | swap =>
    by_cases h : t.Idle
    · have h' : t.feedback.Idle := h
      rw [threadedStep, threadedStep, if_pos h, if_pos h']
      rfl
    · have h' : ¬t.feedback.Idle := h
      rw [threadedStep, threadedStep, if_neg h, if_neg h']
  | applyExt =>
    obtain ⟨s, statuses, exts⟩ := t
    cases exts <;> rfl
  | publish =>
    obtain ⟨s, statuses, exts⟩ := t
    cases exts <;> cases statuses <;> rfl
  | event e =>
    by_cases he : e = .drain
    · rw [he]
      rfl
    · rw [threadedStep_of_ne_drain conv cfg he, threadedStep_of_ne_drain conv cfg he]
      rcases step_cases conv cfg e with ⟨x, -, -, hstep⟩ | rfl | ⟨single, ok, rfl⟩ |
        ⟨-, -, frames, responses, hstep⟩
      · cases x <;> simp [hstep, push, ThreadedState.feedback]
      · exact absurd rfl he
      · rfl
      · simp [hstep, ThreadedState.feedback]

theorem step_of_not_onFeedbackPath {e : Event}
    (h : (ThreadedAction.event e).onFeedbackPath = false) (s : NodeState) :
    ∃ frames responses, step conv cfg s e =
      { s with sent := s.sent ++ frames, responses := s.responses ++ responses } := by
  rcases step_cases conv cfg e with ⟨x, hx, -, -⟩ | rfl | ⟨single, ok, rfl⟩ |
    ⟨-, -, frames, responses, hstep⟩
  · cases e with
    | rx read => cases h
    | _ => cases hx
  · cases h
  · cases h
  · exact ⟨frames, responses, hstep s⟩

theorem unseen_feedback :
    Runs.Unseen (threadedStep conv cfg) ThreadedState.feedback ThreadedAction.onFeedbackPath where
  skips t a h := by
    cases a with
    | event e =>
      have he : e ≠ .drain := by
        rintro rfl
        cases h
      obtain ⟨frames, responses, hstep⟩ := step_of_not_onFeedbackPath conv cfg h t.node
      refine ⟨_, threadedStep_of_ne_drain conv cfg he t, ?_⟩
      rw [hstep]
      rfl
    | _ => cases h
  respects t t' a h := by
    rw [threadedStep_feedback, h, ← threadedStep_feedback]

theorem step_appends (e : Event) :
    ∃ frames responses, ∀ s, (step conv cfg s e).sent = s.sent ++ frames ∧
      (step conv cfg s e).responses = s.responses ++ responses := by
  rcases step_cases conv cfg e with ⟨x, -, -, hstep⟩ | rfl | ⟨single, ok, rfl⟩ |
    ⟨-, -, frames, responses, hstep⟩
  · refine ⟨[], [], fun s => ?_⟩
    rw [hstep]
    cases x <;> simp [push]
  · exact ⟨[], [], fun s => by simp [step, drainRxQueueAndPublish]⟩
  · exact ⟨_, _, fun s => ⟨rfl, rfl⟩⟩
  · exact ⟨frames, responses, fun s => by simp [hstep]⟩

theorem rxThreadMain_outputs (s : NodeState) (read : SocketRead) :
    SameOutputs s (rxThreadMain cfg s read) := by
  rw [rxThreadMain_eq]
  cases feedbackOf cfg.canId read with
  | none => exact ⟨rfl, rfl, rfl, rfl, rfl⟩
  | some x => cases x <;> exact ⟨rfl, rfl, rfl, rfl, rfl⟩

theorem outputs_of_not_onCommandPath {t t' : ThreadedState} {a : ThreadedAction}
    (ha : a.onCommandPath = false) (h : threadedStep conv cfg t a = some t') :
    t'.outputs = t.outputs := by
  cases a with
  | swap =>
    obtain ⟨-, rfl⟩ := threadedStep_swap conv cfg h
    rfl
  | applyExt =>
    obtain ⟨ext, exts, -, rfl⟩ := threadedStep_applyExt conv cfg h
    rfl
  | publish =>
    obtain ⟨status, statuses, -, -, rfl⟩ := threadedStep_publish conv cfg h
    rfl
  | event e =>
    obtain ⟨-, rfl⟩ := threadedStep_event conv cfg h
    cases e with
    | rx read =>
      have hsame := rxThreadMain_outputs cfg t.node read
      exact Prod.ext hsame.sent hsame.responses
    | _ => cases ha

theorem outputs_of_onCommandPath {t t' u : ThreadedState} {a : ThreadedAction}
    (ha : a.onCommandPath) (h : threadedStep conv cfg t a = some t')
    (hu : t.outputs = u.outputs) :
    ∃ u', threadedStep conv cfg u a = some u' ∧ t'.outputs = u'.outputs := by
  have hsent : t.node.sent = u.node.sent := congrArg Prod.fst hu
  have hresponses : t.node.responses = u.node.responses := congrArg Prod.snd hu
  cases a with
  | event e =>
    obtain ⟨he, rfl⟩ := threadedStep_event conv cfg h
    obtain ⟨frames, responses, happends⟩ := step_appends conv cfg e
    refine ⟨_, threadedStep_of_ne_drain conv cfg he u, ?_⟩
    simp only [ThreadedState.outputs, happends, hsent, hresponses]
  | _ => cases ha

end Paths

/-- From any state and in any order of steps, no command and no service call but the one
that turns the extended positions off changes, delays or blocks what is published, and
nothing that is received changes what is sent or answered. -/
theorem paths_independent (conv : FloatCast) (cfg : NodeConfig) (t : ThreadedState)
    (acts : List ThreadedAction) :
    (Runs.guardedRun (threadedStep conv cfg) t acts).map ThreadedState.feedback =
      (Runs.guardedRun (threadedStep conv cfg) t
        (acts.filter ThreadedAction.onFeedbackPath)).map ThreadedState.feedback ∧
    ∀ t', Runs.guardedRun (threadedStep conv cfg) t acts = some t' →
      ∃ u, Runs.guardedRun (threadedStep conv cfg) t
        (acts.filter ThreadedAction.onCommandPath) = some u ∧ t'.outputs = u.outputs := by
  refine ⟨(unseen_feedback conv cfg).guardedRun_filter acts rfl, fun t' hrun => ?_⟩
  have hskip : ∀ (s u : ThreadedState) (a : ThreadedAction) (s' : ThreadedState),
      s.outputs = u.outputs → a.onCommandPath = false →
      threadedStep conv cfg s a = some s' → s'.outputs = u.outputs :=
    fun s u a s' hu ha hstep => (outputs_of_not_onCommandPath conv cfg ha hstep).trans hu
  exact Runs.guardedRun_filter _ hskip
    (fun s u a s' hu ha hstep => outputs_of_onCommandPath conv cfg ha hstep hu) rfl hrun

end AkV3Driver
