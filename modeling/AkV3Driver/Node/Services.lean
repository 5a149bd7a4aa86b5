import AkV3Driver.Node.Independence
import AkV3Driver.Node.WireCommands

/-!
# What a service answer stands for

A service answers with the outcome of one write. On the bus this makes every success an
answer for one command that the motor reads, and every failure an answer for none.
-/

namespace AkV3Driver
open Protocol

/-- The message of a service when its command was written. -/
def WireCommand.reply : WireCommand → Option String
  | setOrigin _ => some "origin set command sent"
  | feedbackConfig _ _ => some "feedback config command sent"
  | disable => some "disable command sent"
  | _ => none

def answerOf (p : WireCommand × Bool) : Option ServiceResponse :=
  p.1.reply.map fun message => ⟨p.2, if p.2 then message else "CAN send failed"⟩

section Node
variable (conv : FloatCast) (cfg : NodeConfig)

theorem wireCommand_reply (msg : MotorCommand) (mode : CommandMode) :
    (wireCommand conv cfg msg mode).reply = none := by cases mode <;> rfl

theorem step_responses (s : NodeState) (e : Event) :
    (step conv cfg s e).responses =
      s.responses ++ ((wireOf conv cfg e).bind answerOf).toList := by
  cases e with
  | rx read =>
    exact (rxThreadMain_outputs cfg s read).responses.trans (List.append_nil _).symm
  | drain => exact (List.append_nil _).symm
  | command msg ok =>
    cases hmode : CommandMode.ofByte msg.mode with
    | none => simp [step, onCommand, wireOf, hmode]
    | some mode => simp [step, onCommand, wireOf, hmode, answerOf, wireCommand_reply]
  | setOrigin permanent ok => rfl
  | setFeedbackConfig add single ok => rfl
  | disable ok => rfl

theorem threadedStep_responses {t t' : ThreadedState} {a : ThreadedAction}
    (h : threadedStep conv cfg t a = some t') :
    t'.node.responses = t.node.responses ++ ((a.wireOf conv cfg).bind answerOf).toList := by
  cases a with
  | swap =>
    obtain ⟨-, rfl⟩ := threadedStep_swap conv cfg h
    exact (List.append_nil _).symm
  | applyExt =>
    obtain ⟨ext, exts, -, rfl⟩ := threadedStep_applyExt conv cfg h
    exact (List.append_nil _).symm
  | publish =>
    obtain ⟨status, statuses, -, -, rfl⟩ := threadedStep_publish conv cfg h
    exact (List.append_nil _).symm
  | event e =>
    obtain ⟨-, rfl⟩ := threadedStep_event conv cfg h
    exact step_responses conv cfg t.node e

theorem responses_traced {history : List (ThreadedAction ⊕ RawFrame)} {t : ThreadedState}
    (h : Runs.guardedRun (busNode conv cfg).step {} history = some t) :
    t.node.responses =
      ((history.filterMap Sum.getLeft?).filterMap
        (ThreadedAction.wireOf conv cfg)).filterMap answerOf := by
  refine Runs.guardedRun_history (fun past t x t' ht hx => ?_) [] (P := fun past t =>
    t.node.responses = ((past.filterMap Sum.getLeft?).filterMap
      (ThreadedAction.wireOf conv cfg)).filterMap answerOf) rfl h
  rw [threadedStep_responses conv cfg (busNode_step conv cfg hx), ht]
  cases x with
  | inl a =>
    cases hw : a.wireOf conv cfg with
    | none => simp [localAction, hw]
    | some p => cases hp : answerOf p <;> simp [localAction, hw, hp]
  | inr raw => simp [localAction, ThreadedAction.wireOf, wireOf, List.filterMap_cons]

end Node

theorem successes_answerOf (ps : List (WireCommand × Bool)) :
    ((ps.filterMap answerOf).filter ServiceResponse.success).map ServiceResponse.message =
      (ps.filter Prod.snd).filterMap fun p => p.1.reply := by
  induction ps with
  | nil => rfl
  | cons p ps ih =>
    obtain ⟨w, ok⟩ := p
    cases ok <;> cases hw : w.reply <;> simp [answerOf, hw, ih]

theorem failures_answerOf (ps : List (WireCommand × Bool)) {response : ServiceResponse}
    (h : response ∈ ps.filterMap answerOf) (hfail : response.success = false) :
    response.message = "CAN send failed" := by
  obtain ⟨p, -, hp⟩ := List.mem_filterMap.mp h
  obtain ⟨message, -, rfl⟩ := Option.map_eq_some_iff.mp hp
  exact if_neg (by simpa using hfail)

theorem length_answerOf (ps : List (WireCommand × Bool)) :
    (ps.filterMap answerOf).length = (ps.filterMap fun p => p.1.reply).length := by
  induction ps with
  | nil => rfl
  | cons p ps ih => cases hw : p.1.reply <;> simp [answerOf, hw, ih]

/-- The successful answers of a node are, in order, the service commands that its motor
reads, now or once the rest is transmitted; a failure says that nothing was written. -/
theorem services_answered {ι : Type*} [DecidableEq ι] (conv : FloatCast) (cfg : ι → NodeConfig)
    (hid : ∀ i j, (cfg i).canId = (cfg j).canId → i = j) (acts : List (BusAction ι))
    (n : BusState ι) (h : Runs.guardedRun (busStep conv cfg) busStart acts = some n) (i : ι) :
    (((n.bus.map Prod.snd).filter (addressedTo (cfg i).canId) ++ n.outbox i).filterMap
        heardCommand).filterMap (fun p => p.2.reply) =
      ((n.node i).node.responses.filter ServiceResponse.success).map ServiceResponse.message ∧
    (∀ response ∈ (n.node i).node.responses, response.success = false →
      response.message = "CAN send failed") ∧
    (n.node i).node.responses.length =
      (((Broadcast.ownActs i acts).filterMap
        (ThreadedAction.wireOf conv (cfg i))).filterMap fun p => p.1.reply).length := by
  have hq := Broadcast.queued _ h
  have hbus : ∀ p ∈ n.bus, ∃ a, p.2 ∈ (busNode conv (cfg p.1)).emit a :=
    fun p hp => hq.emitted _ (.inr hp)
  obtain ⟨history, hrun, hacts, -⟩ := Broadcast.alone (deaf conv cfg) h i
  have hresponses := responses_traced conv (cfg i) hrun
  rw [hacts] at hresponses
  refine ⟨?_, ?_, ?_⟩
  · have hheard := heardCommand_emitted conv (cfg i) (Broadcast.ownActs i acts)
    have hread := congrArg (List.filterMap id) hheard
    rw [List.filterMap_map, List.filterMap_map] at hread
    rw [hresponses, successes_answerOf, filter_addressedTo conv cfg hid i n.bus hbus, hq i]
    refine (congrArg (List.filterMap fun p => p.2.reply) hread).trans ?_
    rw [List.filterMap_filterMap]
    rfl
  · rw [hresponses]
    exact fun response hr hfail => failures_answerOf _ hr hfail
  · rw [hresponses]
    exact length_answerOf _

theorem services_answered_wheels :
    ∃ n, Runs.guardedRun (busStep .wrapping wheels) busStart wheelActs = some n ∧
      (((n.bus.map Prod.snd).filter (addressedTo (wheels 0).canId) ++ n.outbox 0).filterMap
          heardCommand).filterMap (fun p => p.2.reply) =
        ((n.node 0).node.responses.filter ServiceResponse.success).map
          ServiceResponse.message ∧
      (∀ response ∈ (n.node 0).node.responses, response.success = false →
        response.message = "CAN send failed") ∧
      (n.node 0).node.responses.length =
        (((Broadcast.ownActs 0 wheelActs).filterMap
          (ThreadedAction.wireOf .wrapping (wheels 0))).filterMap fun p => p.1.reply).length :=
  ⟨_, rfl, services_answered .wrapping wheels (by decide) wheelActs _ rfl 0⟩

end AkV3Driver
