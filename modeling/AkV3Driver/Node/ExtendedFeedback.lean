import AkV3Driver.Node.FeedbackPath

/-!
# Turning extended feedback off

A disabling call forgets the cached extended position, but not the extended
positions that wait in the queue: the next drain caches one of them again. The
fallback to the status positions holds exactly when nothing waits at the call.
-/

namespace AkV3Driver
open Mailbox (itemsOf sidesOf)
open Protocol (StatusFrame ExtendedPositionFrame funcIdStatus)

/-- A published state that takes its position from its own status frame. -/
def FromStatus (cfg : NodeConfig) (state : MotorState) (status : StatusFrame) : Prop :=
  state.extendedPositionValid = false ∧ state.position = cfg.sign * degToRad status.positionDeg

def FallsBack (conv : FloatCast) (cfg : NodeConfig) (s : NodeState) (post : List Event) : Prop :=
  ∃ statuses states,
    statuses ++ (run conv cfg s post).statusQueue =
      s.statusQueue ++ itemsOf (received cfg.canId post) ∧
    (run conv cfg s post).states = s.states ++ states ∧
    List.Forall₂ (FromStatus cfg) states statuses

section Disable
variable (conv : FloatCast) (cfg : NodeConfig) {s : NodeState}

theorem forgotten_fallsBack (single : Bool) {m : Mailbox StatusFrame ExtendedPositionFrame}
    (h : Refines cfg s m) (hqueue : s.extPositionQueue = []) (post : List Event)
    (hpost : sidesOf (received cfg.canId post) = []) :
    FallsBack conv cfg (onSetFeedbackConfig cfg s false single true) post := by
  have hcall : Refines cfg (onSetFeedbackConfig cfg s false single true) (Mailbox.step m .forget) :=
    step_refines conv cfg (.setFeedbackConfig false single true) h
  have hrun := run_refines conv cfg post hcall
  obtain ⟨statuses, hitems, hdelivered⟩ :=
    Mailbox.run_quiet (post.flatMap (feedbackOps cfg.canId)) (Mailbox.step m .forget)
      (h.extPositionQueue.symm.trans hqueue) rfl (by rwa [arrivals_feedbackOps])
  rw [arrivals_feedbackOps] at hitems
  refine ⟨statuses, statuses.map (motorState cfg none), ?_, ?_, ?_⟩
  · rw [hrun.statusQueue, hcall.statusQueue]
    exact hitems
  · rw [hrun.states, hcall.states, hdelivered]
    simp [publishedState, Function.comp_def]
  · refine List.forall₂_map_left_iff.mpr (List.forall₂_same.mpr fun status _ => ?_)
    exact ⟨rfl, rfl⟩

theorem applyExtPositions_isSome (last : Option ℚ) {exts : List ExtendedPositionFrame}
    (h : exts ≠ []) : (applyExtPositions last exts).isSome := by
  obtain ⟨exts, ext, rfl⟩ := List.eq_nil_or_concat exts |>.resolve_left h
  simp [applyExtPositions]

theorem queued_not_fallsBack (single : Bool) (hqueue : s.extPositionQueue ≠ []) :
    ¬FallsBack conv cfg (onSetFeedbackConfig cfg s false single true)
      [.rx (zeroRead cfg.canId funcIdStatus), .drain] := by
  rintro ⟨statuses, states, -, hstates, hfrom⟩
  obtain ⟨status, -, hrun⟩ := run_zeroRead_drain conv cfg
  have hlast := applyExtPositions_isSome none hqueue
  have hvalid := ((List.forall₂_and_left _ _).mp hfrom).1
  have hnew : states = (s.statusQueue ++ [status]).map
      (motorState cfg (applyExtPositions none s.extPositionQueue)) := by
    rw [(hrun _).2] at hstates
    exact (List.append_cancel_left hstates).symm
  have hmem : motorState cfg (applyExtPositions none s.extPositionQueue) status ∈ states := by
    simp [hnew]
  simpa [motorState, hlast] using hvalid _ hmem

end Disable

theorem disable_fallsBack_iff (conv : FloatCast) (cfg : NodeConfig) (pre : List Event)
    (single : Bool) :
    (∀ post, sidesOf (received cfg.canId post) = [] →
      FallsBack conv cfg (onSetFeedbackConfig cfg (run conv cfg {} pre) false single true) post) ↔
      (run conv cfg {} pre).extPositionQueue = [] := by
  constructor
  · intro h
    by_contra hqueue
    refine queued_not_fallsBack conv cfg single hqueue (h _ ?_)
    obtain ⟨status, hreceived, -⟩ := run_zeroRead_drain conv cfg
    rw [hreceived]
    rfl
  · intro hqueue post hpost
    have hpre := run_refines conv cfg pre (init_refines cfg)
    exact forgotten_fallsBack conv cfg single hpre hqueue post hpost

/-- An extended position of 10000 degrees, received just before the call, outlives it. -/
theorem disable_keeps_queued_position :
    ¬∀ (conv : FloatCast) (cfg : NodeConfig) (pre : List Event) (single : Bool) (post : List Event),
      sidesOf (received cfg.canId post) = [] →
      FallsBack conv cfg (onSetFeedbackConfig cfg (run conv cfg {} pre) false single true)
        post := by
  intro h
  refine queued_not_fallsBack (s := run .wrapping (ak80Node false) {}
    [.rx (.frame ⟨0x80002A01, 4, ![0x00, 0x0F, 0x42, 0x40, 0, 0, 0, 0], by decide⟩)])
    .wrapping (ak80Node false) false (by decide +kernel) (h _ _ _ _ _ (by decide +kernel))

end AkV3Driver
