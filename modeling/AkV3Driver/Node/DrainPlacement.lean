import AkV3Driver.Node.FeedbackPath

/-!
# Where the drain ticks fall

A placement cuts the received frames into batches, one for each drain tick. What is
published does not depend on the placement, except for the position: the extended
positions of a batch are applied before any of its statuses.
-/

namespace AkV3Driver
open Mailbox (itemsOf sidesOf inOrder latest SidesFirst batchOps)
open Protocol (StatusFrame ExtendedPositionFrame)

def placedEvents (batches : List (List SocketRead)) : List Event :=
  batches.flatMap fun b => b.map .rx ++ [.drain]

def feedbacks (canId : UInt8) (reads : List SocketRead) :
    List (StatusFrame ⊕ ExtendedPositionFrame) := reads.filterMap (feedbackOf canId)

def published (conv : FloatCast) (cfg : NodeConfig) (batches : List (List SocketRead)) :
    List MotorState := (run conv cfg {} (placedEvents batches)).states

/-- Each status with the latest extended position received before it, or its own
position if there was none. -/
def inOrderStates (cfg : NodeConfig) (reads : List SocketRead) : List MotorState :=
  (inOrder none (feedbacks cfg.canId reads)).map (publishedState cfg)

def MotorState.withoutPosition (state : MotorState) : MotorState :=
  { state with position := 0, extendedPositionValid := false }

section Placement
variable (canId : UInt8) (batches : List (List SocketRead))

theorem feedbacks_flatten :
    feedbacks canId batches.flatten = (batches.map (feedbacks canId)).flatten :=
  List.filterMap_flatten

theorem feedbackOps_rx (reads : List SocketRead) :
    (reads.map Event.rx).flatMap (feedbackOps canId) = (feedbacks canId reads).map .arrive := by
  induction reads with
  | nil => rfl
  | cons read reads ih =>
    cases h : feedbackOf canId read <;> simp [feedbackOps, feedbacks, h] at ih ⊢ <;> exact ih

theorem feedbackOps_placedEvents :
    (placedEvents batches).flatMap (feedbackOps canId) =
      (batches.map (feedbacks canId)).flatMap batchOps := by
  induction batches with
  | nil => rfl
  | cons b batches ih =>
    simp only [placedEvents] at ih
    simp [placedEvents, feedbackOps_rx, batchOps, ih, feedbackOps]

end Placement

theorem exists_placement (es : List Event) (hes : ∀ e ∈ es, e = .drain ∨ ∃ read, e = .rx read)
    (hlast : es.getLast? = some .drain) : ∃ batches, placedEvents batches = es := by
  induction es with
  | nil => exact ⟨[], rfl⟩
  | cons e es ih =>
    have hes' := fun e' he' => hes e' (List.mem_cons_of_mem e he')
    cases es with
    | nil =>
      obtain rfl : e = .drain := by simpa using hlast
      exact ⟨[[]], rfl⟩
    | cons e' es =>
      obtain ⟨batches, hb⟩ := ih hes' (by simpa using hlast)
      rcases hes e (by simp) with rfl | ⟨read, rfl⟩
      · exact ⟨[] :: batches, by simp [← hb, placedEvents]⟩
      · cases batches with
        | nil => simp [placedEvents] at hb
        | cons b batches => exact ⟨(read :: b) :: batches, by simp [← hb, placedEvents]⟩

section Published
variable (conv : FloatCast) (cfg : NodeConfig) (batches : List (List SocketRead))

theorem published_eq :
    published conv cfg batches =
      (Runs.run Mailbox.step (Mailbox.drained none [])
        ((batches.map (feedbacks cfg.canId)).flatMap batchOps)).delivered.map
          (publishedState cfg) := by
  rw [← feedbackOps_placedEvents]
  exact (run_refines conv cfg _ (init_refines cfg)).states

theorem withoutPosition_publishedState (ps : List (StatusFrame × Option ExtendedPositionFrame)) :
    (ps.map (publishedState cfg)).map MotorState.withoutPosition =
      (ps.map Prod.fst).map fun status => (motorState cfg none status).withoutPosition := by
  simp [Function.comp_def, publishedState, motorState, MotorState.withoutPosition]

theorem published_withoutPosition :
    (published conv cfg batches).map MotorState.withoutPosition =
      (inOrderStates cfg batches.flatten).map MotorState.withoutPosition := by
  rw [published_eq, inOrderStates, withoutPosition_publishedState, withoutPosition_publishedState,
    Mailbox.run_batches_items, Mailbox.inOrder_items, feedbacks_flatten]

theorem published_snoc (b : List SocketRead) :
    published conv cfg (batches ++ [b]) =
      published conv cfg batches ++ (itemsOf (feedbacks cfg.canId b)).map (motorState cfg
        ((latest none (sidesOf (feedbacks cfg.canId (batches ++ [b]).flatten))).map
          (·.positionDeg))) := by
  simp only [published_eq, List.map_append, List.map_singleton, Mailbox.run_batches_snoc,
    feedbacks_flatten]
  simp [publishedState, Function.comp_def]

theorem published_of_sidesFirst (h : ∀ b ∈ batches, SidesFirst (feedbacks cfg.canId b)) :
    published conv cfg batches = inOrderStates cfg batches.flatten := by
  rw [published_eq, inOrderStates, feedbacks_flatten,
    Mailbox.run_batches_of_sidesFirst _ (by simpa using h)]
  rfl

/-- The code's own one-by-one processing: a drain after every read. -/
theorem published_oneByOne (reads : List SocketRead) :
    published conv cfg (reads.map ([·])) = inOrderStates cfg reads := by
  have hflat : (reads.map ([·])).flatten = reads := by simp [← List.flatMap_def]
  have h := published_of_sidesFirst conv cfg (reads.map ([·])) fun b hb => ?_
  · rwa [hflat] at h
  · obtain ⟨read, -, rfl⟩ := List.mem_map.mp hb
    cases hf : feedbackOf cfg.canId read <;> simp [feedbacks, SidesFirst, hf]

end Published

/-- Up to the position a placement publishes what a drain after every read does, and in
all fields if in no batch an extended position follows a status. -/
theorem published_placement (conv : FloatCast) (cfg : NodeConfig) :
    (∀ reads : List SocketRead,
      published conv cfg (reads.map ([·])) = inOrderStates cfg reads) ∧
    (∀ batches batches' : List (List SocketRead), batches.flatten = batches'.flatten →
      (published conv cfg batches).map MotorState.withoutPosition =
          (published conv cfg batches').map MotorState.withoutPosition ∧
        (published conv cfg batches).map MotorState.withoutPosition =
          (inOrderStates cfg batches.flatten).map MotorState.withoutPosition) ∧
      (∀ (batches : List (List SocketRead)) (b : List SocketRead),
        published conv cfg (batches ++ [b]) =
          published conv cfg batches ++ (itemsOf (feedbacks cfg.canId b)).map (motorState cfg
            ((latest none (sidesOf (feedbacks cfg.canId (batches ++ [b]).flatten))).map
              (·.positionDeg)))) ∧
      ∀ batches : List (List SocketRead),
        (∀ b ∈ batches, SidesFirst (feedbacks cfg.canId b)) →
        published conv cfg batches = inOrderStates cfg batches.flatten := by
  refine ⟨published_oneByOne conv cfg, fun batches batches' h => ⟨?_, ?_⟩, ?_, ?_⟩
  · rw [published_withoutPosition, published_withoutPosition, h]
  · exact published_withoutPosition conv cfg batches
  · exact published_snoc conv cfg
  · exact published_of_sidesFirst conv cfg

/-- A status and then an extended position: a drain between the two decides which
position is published. -/
theorem published_depends_on_placement :
    ¬∀ (conv : FloatCast) (cfg : NodeConfig) (batches batches' : List (List SocketRead)),
      batches.flatten = batches'.flatten →
      published conv cfg batches = published conv cfg batches' := by
  intro h
  have heq := h .wrapping (ak80Node false)
    [[zeroRead 1 Protocol.funcIdStatus, zeroRead 1 Protocol.funcIdExtPosition]]
    [[zeroRead 1 Protocol.funcIdStatus], [zeroRead 1 Protocol.funcIdExtPosition]] rfl
  exact absurd heq (by decide +kernel)

end AkV3Driver
