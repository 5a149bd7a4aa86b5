import AkV3Driver.Lib.MailboxHistory
import AkV3Driver.Node.ExtendedFeedback
import AkV3Driver.Node.Interleaving

/-!
# How old a published position can be

The threaded machine, with the drain in progress thought finished, is a mailbox: its
locked swap is the drain of the mailbox, and whatever is interleaved with the rest of
the drain commutes with it. The trace of a delivery then says which extended position
accompanies a status.
-/

namespace AkV3Driver
open Mailbox (itemsOf sidesOf arrivals latest)
open Protocol (StatusFrame ExtendedPositionFrame decodeExtendedPositionFrame)

def acceptedExtPosition (canId : UInt8) : Event → Option ExtendedPositionFrame
  | .rx read =>
    (CanSocket.receive {} read).bind fun frame => decodeExtendedPositionFrame frame canId
  | _ => none

def acceptedExtPositions (canId : UInt8) (acts : List ThreadedAction) :
    List ExtendedPositionFrame :=
  acts.filterMap fun | .event e => acceptedExtPosition canId e | _ => none

namespace ThreadedAction

/-- A call that turns the extended frame off, whether or not its frame is sent. -/
def DisablesExt : ThreadedAction → Prop
  | .event (.setFeedbackConfig false _ _) => True
  | _ => False

def feedbackOp (canId : UInt8) : ThreadedAction → Option FeedbackOp
  | .swap => some .drain
  | .event (.rx read) => (feedbackOf canId read).map .arrive
  | _ => none

variable {canId : UInt8} {act : ThreadedAction}

theorem feedbackOp_ne_forget (act : ThreadedAction) : act.feedbackOp canId ≠ some .forget := by
  cases act with
  | event e => cases e <;> simp [feedbackOp]
  | _ => simp [feedbackOp]

theorem feedbackOp_eq_drain : act.feedbackOp canId = some .drain ↔ act = .swap := by
  cases act with
  | event e => cases e <;> simp [feedbackOp]
  | _ => simp [feedbackOp]

theorem feedbackOp_eq_arrive {x : StatusFrame ⊕ ExtendedPositionFrame}
    (h : act.feedbackOp canId = some (.arrive x)) :
    ∃ read, act = .event (.rx read) ∧ feedbackOf canId read = some x := by
  cases act with
  | event e => cases e <;> simp_all [feedbackOp]
  | _ => simp [feedbackOp] at h

end ThreadedAction

section Accepted
variable (canId : UInt8)

theorem acceptedExtPosition_eq (e : Event) :
    acceptedExtPosition canId e = (e.feedback canId).bind Sum.getRight? := by
  cases e with
  | rx read => exact (feedbackOf_right canId read).symm
  | _ => rfl

theorem arrivals_feedbackOp (acts : List ThreadedAction) :
    arrivals (acts.filterMap (ThreadedAction.feedbackOp canId)) =
      acts.filterMap fun | .event e => e.feedback canId | _ => none := by
  simp only [arrivals, List.filterMap_filterMap]
  refine List.filterMap_congr fun act _ => ?_
  cases act with
  | event e =>
    cases e with
    | rx read =>
      simp only [ThreadedAction.feedbackOp, Event.feedback]
      cases feedbackOf canId read <;> rfl
    | _ => rfl
  | _ => rfl

theorem itemsOf_feedbackOp (acts : List ThreadedAction) :
    itemsOf (arrivals (acts.filterMap (ThreadedAction.feedbackOp canId))) =
      acceptedStatuses canId acts := by
  rw [arrivals_feedbackOp, itemsOf, List.filterMap_filterMap]
  refine List.filterMap_congr fun act _ => ?_
  cases act with
  | event e => exact (acceptedStatus_eq canId e).symm
  | _ => rfl

theorem sidesOf_feedbackOp (acts : List ThreadedAction) :
    sidesOf (arrivals (acts.filterMap (ThreadedAction.feedbackOp canId))) =
      acceptedExtPositions canId acts := by
  rw [arrivals_feedbackOp, sidesOf, List.filterMap_filterMap]
  refine List.filterMap_congr fun act _ => ?_
  cases act with
  | event e => exact (acceptedExtPosition_eq canId e).symm
  | _ => rfl

end Accepted

section Refinement
variable (conv : FloatCast) (cfg : NodeConfig)

/-- Only the drain and a disabling call see the difference between a drain in progress
and a finished one. -/
theorem finish_event (t : ThreadedState) (e : Event) (hdrain : e ≠ .drain)
    (hon : ¬(ThreadedAction.event e).DisablesExt) :
    ({ t with node := step conv cfg t.node e } : ThreadedState).finish cfg =
      step conv cfg (t.finish cfg) e := by
  rcases step_cases conv cfg e with ⟨x, -, -, hstep⟩ | rfl | ⟨single, ok, rfl⟩ |
    ⟨-, -, frames, responses, hstep⟩
  · rw [hstep, hstep]
    cases x <;> rfl
  · exact absurd rfl hdrain
  · exact absurd trivial hon
  · rw [hstep, hstep]
    rfl

theorem feedbackOps_eq_feedbackOp (canId : UInt8) (e : Event) (hdrain : e ≠ .drain)
    (hon : ¬(ThreadedAction.event e).DisablesExt) :
    feedbackOps canId e = ((ThreadedAction.event e).feedbackOp canId).toList := by
  cases e with
  | rx read =>
    cases hr : feedbackOf canId read <;> simp [feedbackOps, ThreadedAction.feedbackOp, hr]
  | drain => exact absurd rfl hdrain
  | setFeedbackConfig add single ok =>
    cases add with
    | true => rfl
    | false => exact absurd trivial hon
  | _ => rfl

theorem threadedStep_refines {t t' : ThreadedState} {act : ThreadedAction}
    {m : Mailbox StatusFrame ExtendedPositionFrame} (hon : ¬act.DisablesExt)
    (hm : Refines cfg (t.finish cfg) m) (h : threadedStep conv cfg t act = some t') :
    Refines cfg (t'.finish cfg)
      (Runs.run Mailbox.step m (act.feedbackOp cfg.canId).toList) := by
  cases act with
  | swap =>
    obtain ⟨hidle, rfl⟩ := threadedStep_swap conv cfg h
    rw [finish_of_idle cfg hidle] at hm
    exact drain_refines cfg hm
  | applyExt =>
    obtain ⟨ext, exts, hx, rfl⟩ := threadedStep_applyExt conv cfg h
    simpa [ThreadedState.finish, hx, applyExtPositions, ThreadedAction.feedbackOp] using hm
  | publish =>
    obtain ⟨status, statuses, hx, hs, rfl⟩ := threadedStep_publish conv cfg h
    simpa [ThreadedState.finish, hx, hs, applyExtPositions, publishOne,
      ThreadedAction.feedbackOp] using hm
  | event e =>
    obtain ⟨hdrain, rfl⟩ := threadedStep_event conv cfg h
    rw [finish_event conv cfg t e hdrain hon,
      ← feedbackOps_eq_feedbackOp cfg.canId e hdrain hon]
    exact step_refines conv cfg e hm

/-- As long as the extended frame is not turned off, the threaded machine follows the
mailbox that reads the same actions. -/
def TracksMailbox (acts : List ThreadedAction) (t : ThreadedState) : Prop :=
  (∀ act ∈ acts, ¬act.DisablesExt) → Refines cfg (t.finish cfg)
    (Runs.run Mailbox.step (Mailbox.drained none [])
      (acts.filterMap (ThreadedAction.feedbackOp cfg.canId)))

theorem tracksMailbox_step (acts : List ThreadedAction) (t : ThreadedState)
    (act : ThreadedAction) (t' : ThreadedState) (ht : TracksMailbox cfg acts t)
    (hact : threadedStep conv cfg t act = some t') : TracksMailbox cfg (acts ++ [act]) t' := by
  intro hon
  have hm := ht fun a ha => hon a (List.mem_append_left _ ha)
  have hops : [act].filterMap (ThreadedAction.feedbackOp cfg.canId) =
      (act.feedbackOp cfg.canId).toList := by
    cases hf : act.feedbackOp cfg.canId <;> simp [hf]
  rw [List.filterMap_append, Runs.run_append, hops]
  exact threadedStep_refines conv cfg (hon act (by simp)) hm hact

theorem run_tracksMailbox {acts : List ThreadedAction} {t : ThreadedState}
    (h : Runs.guardedRun (threadedStep conv cfg) {} acts = some t) : TracksMailbox cfg acts t := by
  have hinit : TracksMailbox cfg [] {} := fun _ => init_refines cfg
  exact Runs.guardedRun_history (tracksMailbox_step conv cfg) [] hinit h

end Refinement

/-- The extended positions received before a status and between it and its swap, and
the state published for it. -/
structure Accompanies (cfg : NodeConfig) (before between : List ExtendedPositionFrame)
    (status : StatusFrame) (state : MotorState) : Prop where
  newest : state = motorState cfg ((latest none (before ++ between)).map (·.positionDeg)) status
  fresh : ∀ old last, before = old ++ [last] → state.extendedPositionValid = true ∧
    ∃ ext ∈ last :: between, state.position = cfg.sign * degToRad ext.positionDeg
  fallback : state.extendedPositionValid = false →
    before ++ between = [] ∧ state.position = cfg.sign * degToRad status.positionDeg

theorem accompanies (cfg : NodeConfig) (before between : List ExtendedPositionFrame)
    (status : StatusFrame) :
    Accompanies cfg before between status
      (motorState cfg ((latest none (before ++ between)).map (·.positionDeg)) status) where
  newest := rfl
  fresh old last hbefore := by
    subst hbefore
    rw [List.append_assoc, Mailbox.latest_append, List.singleton_append, Mailbox.latest_cons]
    cases hl : latest (some last) between with
    | none => exact absurd (Mailbox.latest_eq_none hl).1 (by simp)
    | some ext =>
      refine ⟨rfl, ext, ?_, rfl⟩
      rcases Mailbox.latest_eq_some hl with heq | hmem
      · simp [Option.some.inj heq]
      · exact List.mem_cons_of_mem _ hmem
  fallback hvalid := by
    have hnone : latest none (before ++ between) = none := by simpa [motorState] using hvalid
    rw [hnone]
    exact ⟨(Mailbox.latest_eq_none hnone).2, rfl⟩

theorem published_fresh (conv : FloatCast) (cfg : NodeConfig) (acts : List ThreadedAction)
    (t : ThreadedState) (hon : ∀ act ∈ acts, ¬act.DisablesExt)
    (h : Runs.guardedRun (threadedStep conv cfg) {} acts = some t) (i : ℕ) (state : MotorState)
    (hstate : t.node.states[i]? = some state) :
    ∃ before read status between after,
      acts = before ++ .event (.rx read) :: between ++ .swap :: after ∧
      acceptedStatus cfg.canId (.rx read) = some status ∧
      (acceptedStatuses cfg.canId before).length = i ∧ .swap ∉ between ∧
      Accompanies cfg (acceptedExtPositions cfg.canId before)
        (acceptedExtPositions cfg.canId between) status state := by
  have hm := run_tracksMailbox conv cfg h hon
  have hops : .forget ∉ acts.filterMap (ThreadedAction.feedbackOp cfg.canId) := by
    simp [List.mem_filterMap, ThreadedAction.feedbackOp_ne_forget]
  have hpublished : (t.finish cfg).states[i]? = some state :=
    (List.getElem?_append_left (List.getElem?_eq_some_iff.mp hstate).1).trans hstate
  rw [hm.states, List.getElem?_map] at hpublished
  obtain ⟨p, hp, rfl⟩ := Option.map_eq_some_iff.mp hpublished
  obtain ⟨before, x, between, y, after, rfl, hx, hy, hswap, hi, hlatest⟩ :=
    ((Mailbox.run_traced _ hops).delivered i p hp).preimage
  obtain ⟨read, rfl, hread⟩ := ThreadedAction.feedbackOp_eq_arrive hx
  obtain rfl := ThreadedAction.feedbackOp_eq_drain.mp hy
  refine ⟨before, read, p.1, between, after, rfl, ?_, ?_, ?_, ?_⟩
  · rw [acceptedStatus_eq]
    simp [Event.feedback, hread]
  · rw [← itemsOf_feedbackOp, hi]
  · intro hmem
    exact hswap _ hmem (ThreadedAction.feedbackOp_eq_drain.mpr rfl)
  · have hexts : acceptedExtPositions cfg.canId (before ++ between) =
        acceptedExtPositions cfg.canId before ++ acceptedExtPositions cfg.canId between :=
      List.filterMap_append
    rw [sidesOf_feedbackOp, hexts] at hlatest
    rw [publishedState, hlatest]
    exact accompanies cfg _ _ p.1

/-- A second extended position arrives after the status and before the swap. -/
theorem published_fresh_between :
    ∃ t state, Runs.guardedRun (threadedStep .wrapping (ak80Node true)) {}
        [.event (.rx (.frame ⟨0x80002A01, 4, ![0x00, 0x0F, 0x42, 0x40, 0, 0, 0, 0], by decide⟩)),
          .event (.rx (.frame ⟨0x80002901, 8, ![0, 0, 0, 1, 0, 2, 30, 4], by decide⟩)),
          .event (.rx (.frame ⟨0x80002A01, 4, ![0, 0, 0, 1, 0, 0, 0, 0], by decide⟩)),
          .swap, .applyExt, .applyExt, .publish] = some t ∧
      t.node.states[0]? = some state ∧
      ∃ before read status between after,
        [.event (.rx (.frame ⟨0x80002A01, 4, ![0x00, 0x0F, 0x42, 0x40, 0, 0, 0, 0], by decide⟩)),
          .event (.rx (.frame ⟨0x80002901, 8, ![0, 0, 0, 1, 0, 2, 30, 4], by decide⟩)),
          .event (.rx (.frame ⟨0x80002A01, 4, ![0, 0, 0, 1, 0, 0, 0, 0], by decide⟩)),
          .swap, .applyExt, .applyExt, .publish] =
            before ++ .event (.rx read) :: between ++ .swap :: after ∧
        acceptedStatus 1 (.rx read) = some status ∧
        (acceptedStatuses 1 before).length = 0 ∧ .swap ∉ between ∧
        Accompanies (ak80Node true) (acceptedExtPositions 1 before)
          (acceptedExtPositions 1 between) status state :=
  ⟨_, _, rfl, rfl, published_fresh .wrapping (ak80Node true) _ _
    (by simp [ThreadedAction.DisablesExt]) rfl 0 _ rfl⟩

end AkV3Driver
