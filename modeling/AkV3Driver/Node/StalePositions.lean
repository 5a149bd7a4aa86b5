import AkV3Driver.Node.ExtendedFeedback

/-!
# Extended positions across service calls

The cached extended position and the queue of undrained ones survive a change of the
origin, although both were measured from the old one. A feedback configuration that
fails on the bus still forgets the cached one, although the motor goes on sending.
-/

namespace AkV3Driver
open Mailbox (itemsOf sidesOf)
open Protocol (StatusFrame ExtendedPositionFrame funcIdStatus)

theorem applyExtPositions_eq_none_iff {last : Option ℚ} {exts : List ExtendedPositionFrame} :
    applyExtPositions last exts = none ↔ last = none ∧ exts = [] := by
  by_cases h : exts = []
  · simp [h, applyExtPositions]
  · have hsome := applyExtPositions_isSome last h
    rw [Option.isSome_iff_ne_none] at hsome
    simp [h, hsome]

section Origin
variable (conv : FloatCast) (cfg : NodeConfig)

def PositionFrom (exts : List ExtendedPositionFrame) (state : MotorState) (status : StatusFrame) :
    Prop :=
  FromStatus cfg state status ∨ ∃ ext ∈ exts, state.extendedPositionValid = true ∧
    state.position = cfg.sign * degToRad ext.positionDeg

/-- From state `s` on, the statuses received later are published with positions that
were received later. -/
def PublishesFresh (s : NodeState) (post : List Event) : Prop :=
  ∃ statuses states,
    statuses ++ (run conv cfg s post).statusQueue =
      s.statusQueue ++ itemsOf (received cfg.canId post) ∧
    (run conv cfg s post).states = s.states ++ states ∧ states.length = statuses.length ∧
    List.Forall₂ (PositionFrom cfg (sidesOf (received cfg.canId post)))
      (states.drop s.statusQueue.length) (statuses.drop s.statusQueue.length)

variable {s : NodeState} {m : Mailbox StatusFrame ExtendedPositionFrame}

theorem publishedState_positionFrom {exts : List ExtendedPositionFrame}
    {p : StatusFrame × Option ExtendedPositionFrame} (h : ∀ ext, p.2 = some ext → ext ∈ exts) :
    PositionFrom cfg exts (publishedState cfg p) p.1 := by
  obtain ⟨status, last⟩ := p
  cases last with
  | none => exact .inl ⟨rfl, rfl⟩
  | some ext => exact .inr ⟨ext, h ext rfl, rfl, rfl⟩

theorem publishesFresh (h : Refines cfg s m) (hlast : s.lastExtendedPositionDeg = none)
    (hqueue : s.extPositionQueue = []) (post : List Event) : PublishesFresh conv cfg s post := by
  have hrun := run_refines conv cfg post h
  have hcached : m.cached = none := by simpa [hlast] using h.lastExtendedPositionDeg.symm
  have hsides : m.sides = [] := h.extPositionQueue.symm.trans hqueue
  obtain ⟨out, hout, hsrc⟩ := Mailbox.run_sources (post.flatMap (feedbackOps cfg.canId)) m
  have hitems := Mailbox.run_conserves m (post.flatMap (feedbackOps cfg.canId))
  rw [hcached, hsides, arrivals_feedbackOps] at hsrc
  rw [arrivals_feedbackOps, hout, List.map_append, List.append_assoc, List.append_assoc,
    List.append_cancel_left_eq] at hitems
  refine ⟨out.map Prod.fst, out.map (publishedState cfg), ?_, ?_, by simp, ?_⟩
  · rw [hrun.statusQueue, h.statusQueue]
    exact hitems
  · rw [hrun.states, h.states, hout, List.map_append]
  · rw [← List.map_drop, ← List.map_drop]
    refine List.forall₂_map_left_iff.mpr (List.forall₂_map_right_iff.mpr ?_)
    refine List.forall₂_same.mpr fun p hp => publishedState_positionFrom cfg fun ext hext => ?_
    simpa using hsrc p (List.mem_of_mem_drop hp) ext hext

theorem stale_not_publishesFresh
    (h : applyExtPositions s.lastExtendedPositionDeg s.extPositionQueue ≠ none) :
    ¬PublishesFresh conv cfg s [.rx (zeroRead cfg.canId funcIdStatus), .drain] := by
  rintro ⟨statuses, states, hitems, hstates, -, hfrom⟩
  obtain ⟨status, hreceived, hrun⟩ := run_zeroRead_drain conv cfg
  have hnew : states = (s.statusQueue ++ [status]).map
      (motorState cfg (applyExtPositions s.lastExtendedPositionDeg s.extPositionQueue)) := by
    rw [(hrun s).2] at hstates
    exact (List.append_cancel_left hstates).symm
  have hold : statuses = s.statusQueue ++ [status] := by
    rw [(hrun s).1, hreceived] at hitems
    simpa using hitems
  rw [hreceived, hnew, hold, ← List.map_drop, List.drop_left, List.map_singleton,
    List.forall₂_cons] at hfrom
  rcases hfrom.1 with ⟨hvalid, -⟩ | ⟨ext, hext, -⟩
  · exact h (by simpa [motorState] using hvalid)
  · simp at hext

end Origin

theorem setOrigin_fresh_iff (conv : FloatCast) (cfg : NodeConfig) (pre : List Event)
    (permanent : Bool) :
    (∀ post, PublishesFresh conv cfg (onSetOrigin cfg (run conv cfg {} pre) permanent true)
      post) ↔
      (run conv cfg {} pre).lastExtendedPositionDeg = none ∧
        (run conv cfg {} pre).extPositionQueue = [] := by
  constructor
  · intro h
    by_contra hstale
    exact stale_not_publishesFresh conv cfg
      (s := onSetOrigin cfg (run conv cfg {} pre) permanent true)
      (mt applyExtPositions_eq_none_iff.mp hstale) (h _)
  · rintro ⟨hlast, hqueue⟩ post
    have hpre := run_refines conv cfg pre (init_refines cfg)
    have hcall : Refines cfg (onSetOrigin cfg (run conv cfg {} pre) permanent true) _ :=
      step_refines conv cfg (.setOrigin permanent true) hpre
    exact publishesFresh conv cfg hcall hlast hqueue post

/-- A position of 10000 degrees from before the change of origin is published after it. -/
theorem setOrigin_publishes_stale :
    ¬∀ (conv : FloatCast) (cfg : NodeConfig) (pre : List Event) (permanent : Bool)
      (post : List Event),
      PublishesFresh conv cfg (onSetOrigin cfg (run conv cfg {} pre) permanent true) post := by
  intro h
  refine stale_not_publishesFresh .wrapping (ak80Node false)
    (s := onSetOrigin (ak80Node false) (run .wrapping (ak80Node false) {}
      [.rx (.frame ⟨0x80002A01, 4, ![0x00, 0x0F, 0x42, 0x40, 0, 0, 0, 0], by decide⟩), .drain])
      true true) (by decide +kernel) (h _ _ _ _ _)

section FailedConfig
variable (conv : FloatCast) (cfg : NodeConfig)

structure SameFeedback (s s' : NodeState) : Prop where
  statusQueue : s.statusQueue = s'.statusQueue
  extPositionQueue : s.extPositionQueue = s'.extPositionQueue
  lastExtendedPositionDeg : s.lastExtendedPositionDeg = s'.lastExtendedPositionDeg
  states : s.states = s'.states

theorem step_sameFeedback (s s' : NodeState) (e : Event) (h : SameFeedback s s') :
    SameFeedback (step conv cfg s e) (step conv cfg s' e) := by
  obtain ⟨hq, hx, hl, hs⟩ := h
  rcases step_cases conv cfg e with ⟨x, -, -, hstep⟩ | rfl | ⟨single, ok, rfl⟩ |
    ⟨-, -, frames, responses, hstep⟩
  · rw [hstep, hstep]
    cases x with
    | inl status => exact ⟨by simp [push, hq], hx, hl, hs⟩
    | inr extPos => exact ⟨hq, by simp [push, hx], hl, hs⟩
  · exact ⟨rfl, rfl, by simp [step, drainRxQueueAndPublish, hl, hx],
      by simp [step, drainRxQueueAndPublish, hl, hx, hq, hs]⟩
  · exact ⟨hq, hx, rfl, hs⟩
  · rw [hstep, hstep]
    exact ⟨hq, hx, hl, hs⟩

theorem run_sameFeedback {s s' : NodeState} (h : SameFeedback s s') (es : List Event) :
    SameFeedback (run conv cfg s es) (run conv cfg s' es) :=
  Runs.run_related (step_sameFeedback conv cfg) es h

def Event.isReceivePath : Event → Bool
  | .rx _ => true
  | .drain => true
  | _ => false

/-- `s'` differs from `s` in nothing that is published later. -/
def LeavesFeedback (s s' : NodeState) : Prop :=
  s'.lastExtendedPositionDeg = s.lastExtendedPositionDeg ∧ s'.statusQueue = s.statusQueue ∧
    s'.extPositionQueue = s.extPositionQueue ∧
    ∀ post : List Event, (∀ e ∈ post, e.isReceivePath) →
      (run conv cfg s' post).states = (run conv cfg s post).states

end FailedConfig

theorem failedConfig_leaves_iff (conv : FloatCast) (cfg : NodeConfig) (s : NodeState)
    (addExtendedPositionFrame singleTurnMode : Bool) :
    LeavesFeedback conv cfg s
        (onSetFeedbackConfig cfg s addExtendedPositionFrame singleTurnMode false) ↔
      addExtendedPositionFrame = true ∨ s.lastExtendedPositionDeg = none := by
  have hlast : (onSetFeedbackConfig cfg s addExtendedPositionFrame singleTurnMode
      false).lastExtendedPositionDeg = s.lastExtendedPositionDeg ↔
      addExtendedPositionFrame = true ∨ s.lastExtendedPositionDeg = none := by
    cases addExtendedPositionFrame <;> simp [onSetFeedbackConfig, eq_comm]
  constructor
  · rintro ⟨hsame, -⟩
    exact hlast.mp hsame
  · intro h
    have hsame : SameFeedback
        (onSetFeedbackConfig cfg s addExtendedPositionFrame singleTurnMode false) s :=
      ⟨rfl, rfl, hlast.mpr h, rfl⟩
    refine ⟨hsame.lastExtendedPositionDeg, rfl, rfl, fun post _ => ?_⟩
    exact (run_sameFeedback conv cfg hsame post).states

theorem failedConfig_forgets :
    ¬∀ (conv : FloatCast) (cfg : NodeConfig) (pre : List Event)
      (addExtendedPositionFrame singleTurnMode : Bool),
      LeavesFeedback conv cfg (run conv cfg {} pre)
        (onSetFeedbackConfig cfg (run conv cfg {} pre) addExtendedPositionFrame singleTurnMode
          false) := by
  intro h
  obtain ⟨hsame, -⟩ := h .wrapping (ak80Node false)
    [.rx (.frame ⟨0x80002A01, 4, ![0x00, 0x0F, 0x42, 0x40, 0, 0, 0, 0], by decide⟩), .drain]
    false false
  exact absurd hsame (by decide +kernel)

end AkV3Driver
