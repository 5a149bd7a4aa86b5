import AkV3Driver.Lib.Broadcast
import AkV3Driver.Node.FrameTransfer
import AkV3Driver.Node.Interleaving

/-!
# Many nodes and their motors on one bus

Each node is a machine on the broadcast medium: its callbacks are its own steps, the
frames it wrote successfully are what it emits, and the motors are the strangers. A
node is isolated from all the others, every status that its motor delivers is
published once or still on its way, and a motor hears the commands of its own node
and of no other.
-/

namespace AkV3Driver
open Protocol

def ThreadedAction.readsFrame : ThreadedAction → Bool
  | .event (.rx (.frame _)) => true
  | _ => false

/-- The record that a successful write leaves with the kernel. -/
def writtenFrame (p : CanFrame × Bool) : Option RawFrame :=
  if p.2 then CanSocket.toRaw p.1 else none

def ThreadedAction.sendOf (conv : FloatCast) (cfg : NodeConfig) :
    ThreadedAction → Option (CanFrame × Bool)
  | .event e => AkV3Driver.sendOf conv cfg e
  | _ => none

def busNode (conv : FloatCast) (cfg : NodeConfig) :
    Broadcast.Machine ThreadedState ThreadedAction RawFrame where
  act t a := if a.readsFrame then none else threadedStep conv cfg t a
  read t raw := threadedStep conv cfg t (.event (.rx (.frame raw)))
  emit a := ((a.sendOf conv cfg).bind writtenFrame).toList

def heedsFrame (canId : UInt8) (raw : RawFrame) : Bool := IsFeedback canId (.frame raw)

def statusIn (canId : UInt8) (raw : RawFrame) : Option StatusFrame :=
  acceptedStatus canId (.rx (.frame raw))

abbrev BusAction (ι : Type*) := Broadcast.Action ι ThreadedAction RawFrame
abbrev BusState (ι : Type*) := Broadcast.State ι ThreadedState RawFrame

section Node
variable (conv : FloatCast) (cfg : NodeConfig)

def localAction : ThreadedAction ⊕ RawFrame → ThreadedAction
  | .inl a => a
  | .inr raw => .event (.rx (.frame raw))

theorem busNode_step {t t' : ThreadedState} {x : ThreadedAction ⊕ RawFrame}
    (h : (busNode conv cfg).step t x = some t') :
    threadedStep conv cfg t (localAction x) = some t' := by
  cases x with
  | inl a =>
    simp only [Broadcast.Machine.step, busNode] at h
    split_ifs at h
    exact h
  | inr raw => exact h

theorem mem_emit {a : ThreadedAction} {raw : RawFrame} (h : raw ∈ (busNode conv cfg).emit a) :
    ∃ e p, a = .event e ∧ sendOf conv cfg e = some p ∧ CanSocket.toRaw p.1 = some raw := by
  simp only [busNode, Option.mem_toList, Option.bind_eq_some_iff] at h
  obtain ⟨p, hp, hraw⟩ := h
  simp only [writtenFrame] at hraw
  split_ifs at hraw
  cases a with
  | event e => exact ⟨e, p, rfl, hp, hraw⟩
  | _ => cases hp

theorem not_heeds_emit {a : ThreadedAction} {raw : RawFrame}
    (h : raw ∈ (busNode conv cfg).emit a) (canId : UInt8) : heedsFrame canId raw = false := by
  obtain ⟨e, p, -, hp, hraw⟩ := mem_emit conv cfg h
  obtain ⟨raw', hraw', hnot⟩ := (sendOf_packed conv cfg hp).exists_raw
  obtain rfl := Option.some.inj (hraw'.symm.trans hraw)
  simpa [heedsFrame] using hnot canId

theorem read_of_not_heeds {t : ThreadedState} {raw : RawFrame}
    (h : heedsFrame cfg.canId raw = false) : (busNode conv cfg).read t raw = some t := by
  have hrx : rxThreadMain cfg t.node (.frame raw) = t.node :=
    rxThreadMain_of_not_feedback (by simpa [heedsFrame] using h) t.node
  simp [busNode, threadedStep, step, hrx]

end Node

section Network
variable {ι : Type*} (conv : FloatCast) (cfg : ι → NodeConfig)

def busStep [DecidableEq ι] : BusState ι → BusAction ι → Option (BusState ι) :=
  Broadcast.step fun i => busNode conv (cfg i)

def busStart : BusState ι := Broadcast.start fun _ => {}

theorem deaf :
    Broadcast.Deaf (fun i => busNode conv (cfg i)) fun i => heedsFrame (cfg i).canId where
  skips i _ _ h := read_of_not_heeds conv (cfg i) h
  emits i j _ _ h := not_heeds_emit conv (cfg j) h (cfg i).canId

end Network

section History
variable (conv : FloatCast) (cfg : NodeConfig)

structure Traced (history : List (ThreadedAction ⊕ RawFrame)) (t : ThreadedState) : Prop where
  conserved : Conserved cfg (history.map localAction) t
  accepted : acceptedStatuses cfg.canId (history.map localAction) =
    (history.filterMap Sum.getRight?).filterMap (statusIn cfg.canId)
  sent : t.node.sent =
    (history.filterMap Sum.getLeft?).filterMap (ThreadedAction.sendOf conv cfg)

theorem acceptedStatuses_concat (canId : UInt8) (acts : List ThreadedAction)
    (act : ThreadedAction) :
    acceptedStatuses canId (acts ++ [act]) =
      acceptedStatuses canId acts ++ acceptedStatuses canId [act] := List.filterMap_append

theorem threadedStep_sent {t t' : ThreadedState} {a : ThreadedAction}
    (h : threadedStep conv cfg t a = some t') :
    t'.node.sent = t.node.sent ++ (a.sendOf conv cfg).toList := by
  cases a with
  | swap =>
    obtain ⟨-, rfl⟩ := threadedStep_swap conv cfg h
    simp [ThreadedAction.sendOf]
  | applyExt =>
    obtain ⟨ext, exts, -, rfl⟩ := threadedStep_applyExt conv cfg h
    simp [ThreadedAction.sendOf]
  | publish =>
    obtain ⟨status, statuses, -, -, rfl⟩ := threadedStep_publish conv cfg h
    simp [ThreadedAction.sendOf, publishOne]
  | event e =>
    obtain ⟨-, rfl⟩ := threadedStep_event conv cfg h
    exact step_sent conv cfg t.node e

theorem acceptedStatuses_act {t t' : ThreadedState} {a : ThreadedAction}
    (h : (busNode conv cfg).act t a = some t') : acceptedStatuses cfg.canId [a] = [] := by
  simp only [busNode] at h
  split_ifs at h with hread
  cases a with
  | event e =>
    cases e with
    | rx read =>
      cases read with
      | frame raw => exact absurd rfl hread
      | _ => rfl
    | _ => rfl
  | _ => rfl

theorem acceptedStatuses_read (canId : UInt8) (raw : RawFrame) :
    acceptedStatuses canId [localAction (.inr raw)] = (statusIn canId raw).toList := by
  have h : acceptedStatus canId (.rx (.frame raw)) = statusIn canId raw := rfl
  simp only [acceptedStatuses, localAction, List.filterMap_cons, List.filterMap_nil, h]
  cases statusIn canId raw <;> rfl

theorem traced_step (history : List (ThreadedAction ⊕ RawFrame)) (t : ThreadedState)
    (x : ThreadedAction ⊕ RawFrame) (t' : ThreadedState) (ht : Traced conv cfg history t)
    (h : (busNode conv cfg).step t x = some t') : Traced conv cfg (history ++ [x]) t' := by
  obtain ⟨hc, ha, hs⟩ := ht
  have hthreaded := busNode_step conv cfg h
  have hsent := threadedStep_sent conv cfg hthreaded
  refine ⟨?_, ?_, ?_⟩
  · rw [List.map_append]
    exact conserved_step conv cfg _ t _ t' hc hthreaded
  · rw [List.map_append, List.map_singleton, acceptedStatuses_concat, ha]
    cases x with
    | inl a =>
      have hnone := acceptedStatuses_act conv cfg h
      simp [localAction, hnone, List.filterMap_cons]
    | inr raw =>
      rw [acceptedStatuses_read]
      cases hraw : statusIn cfg.canId raw <;> simp [hraw]
  · rw [hsent, hs]
    cases x with
    | inl a => cases hp : a.sendOf conv cfg <;> simp [localAction, hp]
    | inr raw => simp [localAction, ThreadedAction.sendOf, sendOf, List.filterMap_cons]

theorem traced {history : List (ThreadedAction ⊕ RawFrame)} {t : ThreadedState}
    (h : Runs.guardedRun (busNode conv cfg).step {} history = some t) :
    Traced conv cfg history t :=
  Runs.guardedRun_history (traced_step conv cfg) [] ⟨⟨rfl, .nil⟩, rfl, rfl⟩ h

theorem statusIn_of_not_heeds {canId : UInt8} {raw : RawFrame}
    (h : heedsFrame canId raw = false) : statusIn canId raw = none := by
  have hnone : feedbackOf canId (.frame raw) = none :=
    feedbackOf_eq_none (by simpa [heedsFrame] using h)
  simp [statusIn, acceptedStatus_eq, Event.feedback, hnone]

theorem filterMap_heeds (canId : UInt8) (raws : List RawFrame) :
    (raws.filter (heedsFrame canId)).filterMap (statusIn canId) =
      raws.filterMap (statusIn canId) := by
  induction raws with
  | nil => rfl
  | cons raw raws ih =>
    by_cases h : heedsFrame canId raw
    · simp [h, ih, List.filterMap_cons]
    · have hnone : statusIn canId raw = none := statusIn_of_not_heeds (by simpa using h)
      simp [h, ih, hnone]

end History

/-- Whatever the other nodes do, a node has run on its own callbacks and on the feedback
frames of its own motor, each in the order of the schedule. -/
theorem network_isolation {ι : Type*} [DecidableEq ι] (conv : FloatCast) (cfg : ι → NodeConfig)
    (acts : List (BusAction ι)) (n : BusState ι)
    (h : Runs.guardedRun (busStep conv cfg) busStart acts = some n) (i : ι) :
    ∃ history : List (ThreadedAction ⊕ RawFrame),
      Runs.guardedRun (threadedStep conv (cfg i)) {} (history.map localAction) =
        some (n.node i) ∧
      history.filterMap Sum.getLeft? = Broadcast.ownActs i acts ∧
      history.filterMap Sum.getRight? ++ (n.inbox i).filter (heedsFrame (cfg i).canId) =
        (Broadcast.strangers i acts).filter (heedsFrame (cfg i).canId) := by
  obtain ⟨history, hrun, hacts, hreads⟩ := Broadcast.alone (deaf conv cfg) h i
  have hnode : Runs.guardedRun (busNode conv (cfg i)).step {} history = some (n.node i) := hrun
  refine ⟨history, ?_, hacts, hreads⟩
  exact Runs.guardedRun_map localAction (fun _ _ _ hx => busNode_step conv (cfg i) hx) hnode

/-- The statuses a motor delivered are published, in the node, or unread, in that order. -/
theorem network_feedback {ι : Type*} [DecidableEq ι] (conv : FloatCast) (cfg : ι → NodeConfig)
    (acts : List (BusAction ι)) (n : BusState ι)
    (h : Runs.guardedRun (busStep conv cfg) busStart acts = some n) (i : ι) :
    (n.node i).node.states.map MotorState.reading ++ (n.node i).statuses.map (convert (cfg i)) ++
        (n.node i).node.statusQueue.map (convert (cfg i)) ++
        ((n.inbox i).filterMap (statusIn (cfg i).canId)).map (convert (cfg i)) =
      ((Broadcast.strangers i acts).filterMap (statusIn (cfg i).canId)).map (convert (cfg i)) ∧
    List.Forall₂ ReportsFault (n.node i).node.states (n.node i).node.diagnostics := by
  obtain ⟨history, hrun, -, hreads⟩ := Broadcast.alone (deaf conv cfg) h i
  have ht := traced conv (cfg i) hrun
  have hstatuses := congrArg (List.filterMap (statusIn (cfg i).canId)) hreads
  rw [List.filterMap_append, filterMap_heeds, filterMap_heeds, ← ht.accepted] at hstatuses
  refine ⟨?_, ht.conserved.diagnostics⟩
  rw [ht.conserved.readings, ← hstatuses, List.map_append]

/-- The motors of the launch file, on one interface. -/
def motors : List Parameters :=
  [{ jointName := "wheel1", canId := 2, motorType := "AK60-6", invertDirection := false },
   { jointName := "wheel2", canId := 3, motorType := "AK60-6", invertDirection := true }]

def wheels (i : Fin 2) : NodeConfig :=
  ⟨if i = 0 then 2 else 3, if i = 0 then "wheel1" else "wheel2", i = 1,
    ⟨80, 0.5994, -60, 60, -12, 12, 14, 6⟩⟩

example : motors.map (construct fun _ => .ok ()) = [.ok (wheels 0), .ok (wheels 1)] := rfl

/-- The first wheel is stopped while the motor of the second one reports a fault. -/
def wheelActs : List (BusAction (Fin 2)) :=
  [.act 0 (.event (.disable true)), .transmit 0 fun _ => true,
    .inject ⟨0x80002903, 8, ![0, 10, 0xFF, 0x4C, 0, 5, 30, 4], canDlc_eight⟩ fun _ => true,
    .read 1, .read 1, .act 1 .swap]

theorem network_isolation_wheels :
    ∃ n, Runs.guardedRun (busStep .wrapping wheels) busStart wheelActs = some n ∧
      ∃ history : List (ThreadedAction ⊕ RawFrame),
        Runs.guardedRun (threadedStep .wrapping (wheels 1)) {} (history.map localAction) =
          some (n.node 1) ∧
        history.filterMap Sum.getLeft? = Broadcast.ownActs 1 wheelActs ∧
        history.filterMap Sum.getRight? ++
            (n.inbox 1).filter (heedsFrame (wheels 1).canId) =
          (Broadcast.strangers 1 wheelActs).filter (heedsFrame (wheels 1).canId) :=
  ⟨_, rfl, network_isolation .wrapping wheels wheelActs _ rfl 1⟩

theorem network_feedback_wheels :
    ∃ n, Runs.guardedRun (busStep .wrapping wheels) busStart wheelActs = some n ∧
      ((n.node 1).node.states.map MotorState.reading ++
          (n.node 1).statuses.map (convert (wheels 1)) ++
          (n.node 1).node.statusQueue.map (convert (wheels 1)) ++
          ((n.inbox 1).filterMap (statusIn (wheels 1).canId)).map
            (convert (wheels 1)) =
        ((Broadcast.strangers 1 wheelActs).filterMap (statusIn (wheels 1).canId)).map
          (convert (wheels 1)) ∧
      List.Forall₂ ReportsFault (n.node 1).node.states (n.node 1).node.diagnostics) :=
  ⟨_, rfl, network_feedback .wrapping wheels wheelActs _ rfl 1⟩

section Commands
variable (conv : FloatCast) (cfg : NodeConfig)

def addressedTo (canId : UInt8) (raw : RawFrame) : Bool :=
  (raw.canId &&& canEffMask).toUInt8 == canId

def heard (raw : RawFrame) : Option CanFrame := CanSocket.receive {} (.frame raw)

theorem sendOf_id {e : Event} {p : CanFrame × Bool} (h : sendOf conv cfg e = some p) :
    ∃ modeId, p.1.id = buildCanId modeId cfg.canId := by
  cases e with
  | command msg ok =>
    obtain ⟨mode, -, rfl⟩ := Option.map_eq_some_iff.mp h
    obtain ⟨modeId, dlc, hheader⟩ := commandFrame_header conv mode
    exact ⟨modeId, (hheader cfg msg).1⟩
  | setOrigin permanent ok =>
    obtain rfl := Option.some.inj h
    exact ⟨modeSetOrigin, rfl⟩
  | setFeedbackConfig add single ok =>
    obtain rfl := Option.some.inj h
    exact ⟨modeFeedbackConfig, rfl⟩
  | disable ok =>
    obtain rfl := Option.some.inj h
    exact ⟨modeDisable, rfl⟩
  | _ => cases h

theorem buildCanId_toUInt8 (modeId canId : UInt8) : (buildCanId modeId canId).toUInt8 = canId := by
  have hc := canId.toNat_lt
  refine UInt8.toNat_inj.mp ?_
  rw [UInt32.toNat_toUInt8, buildCanId_toNat]
  omega

theorem addressedTo_emit {a : ThreadedAction} {raw : RawFrame}
    (h : raw ∈ (busNode conv cfg).emit a) (canId : UInt8) :
    addressedTo canId raw = (cfg.canId == canId) := by
  obtain ⟨e, p, -, hp, hraw⟩ := mem_emit conv cfg h
  obtain ⟨modeId, hid⟩ := sendOf_id conv cfg hp
  have hlt : p.1.id.toNat < 2 ^ 29 := by
    rw [hid]
    exact (buildCanId_lt modeId cfg.canId).trans (by omega)
  have hmask : raw.canId &&& canEffMask = buildCanId modeId cfg.canId := by
    rw [(CanSocket.toRaw_eq_some hraw).1, or_canEffFlag_and_canEffMask hlt, hid]
  rw [addressedTo, hmask, buildCanId_toUInt8]

theorem heard_writtenFrame {e : Event} {p : CanFrame × Bool} (h : sendOf conv cfg e = some p) :
    (writtenFrame p).map heard = if p.2 then some (some p.1) else none := by
  obtain ⟨raw, hraw, -, hback⟩ := (sendOf_packed conv cfg h).integerFrame.transferable.exists_raw
  by_cases hok : p.2
  · simpa [writtenFrame, hok, hraw, heard] using hback
  · simp [writtenFrame, hok]

theorem heard_emitted (acts : List ThreadedAction) :
    (acts.flatMap (busNode conv cfg).emit).map heard =
      ((acts.filterMap (ThreadedAction.sendOf conv cfg)).filter Prod.snd).map
        (some ∘ Prod.fst) := by
  induction acts with
  | nil => rfl
  | cons a acts ih =>
    rw [List.flatMap_cons, List.map_append, ih]
    cases a with
    | event e =>
      cases hp : sendOf conv cfg e with
      | none => simp [busNode, ThreadedAction.sendOf, hp]
      | some p =>
        have hheard := heard_writtenFrame conv cfg hp
        by_cases hok : p.2
        · obtain ⟨raw, hraw, hraw'⟩ := Option.map_eq_some_iff.mp (hheard.trans (if_pos hok))
          simp [busNode, ThreadedAction.sendOf, hp, hraw, hraw', hok]
        · simp [busNode, ThreadedAction.sendOf, hp, hok, writtenFrame]
    | _ => rfl

end Commands

theorem filter_addressedTo {ι : Type*} [DecidableEq ι] (conv : FloatCast) (cfg : ι → NodeConfig)
    (hid : ∀ i j, (cfg i).canId = (cfg j).canId → i = j) (i : ι) (bus : List (ι × RawFrame))
    (hbus : ∀ p ∈ bus, ∃ a, p.2 ∈ (busNode conv (cfg p.1)).emit a) :
    (bus.map Prod.snd).filter (addressedTo (cfg i).canId) = Broadcast.sentBy i bus := by
  induction bus with
  | nil => rfl
  | cons p bus ih =>
    obtain ⟨a, ha⟩ := hbus p List.mem_cons_self
    have haddr := addressedTo_emit conv (cfg p.1) ha (cfg i).canId
    have hrest := ih fun q hq => hbus q (List.mem_cons_of_mem p hq)
    by_cases hp : p.1 = i
    · simp [Broadcast.sentBy, haddr, hp, hrest]
    · have hne : (cfg p.1).canId ≠ (cfg i).canId := fun h => hp (hid _ _ h)
      simp [Broadcast.sentBy, haddr, hp, hne, hrest]

/-- A motor hears the frames that its own node reported as sent, unchanged and in order,
and no other node's; the rest still waits to be transmitted. -/
theorem network_commands {ι : Type*} [DecidableEq ι] (conv : FloatCast) (cfg : ι → NodeConfig)
    (hid : ∀ i j, (cfg i).canId = (cfg j).canId → i = j) (acts : List (BusAction ι))
    (n : BusState ι) (h : Runs.guardedRun (busStep conv cfg) busStart acts = some n) (i : ι) :
    ((n.bus.map Prod.snd).filter (addressedTo (cfg i).canId)).map heard ++
        (n.outbox i).map heard =
      ((n.node i).node.sent.filter Prod.snd).map (some ∘ Prod.fst) := by
  have hq := Broadcast.queued _ h
  obtain ⟨history, hrun, hacts, -⟩ := Broadcast.alone (deaf conv cfg) h i
  have ht := traced conv (cfg i) hrun
  have hbus : ∀ p ∈ n.bus, ∃ a, p.2 ∈ (busNode conv (cfg p.1)).emit a :=
    fun p hp => hq.emitted _ (.inr hp)
  rw [filter_addressedTo conv cfg hid i n.bus hbus, ← List.map_append, hq i, ht.sent, hacts]
  exact heard_emitted conv (cfg i) _

theorem network_commands_wheels :
    ∃ n, Runs.guardedRun (busStep .wrapping wheels) busStart wheelActs = some n ∧
      ((n.bus.map Prod.snd).filter (addressedTo (wheels 0).canId)).map heard ++
          (n.outbox 0).map heard =
        ((n.node 0).node.sent.filter Prod.snd).map (some ∘ Prod.fst) :=
  ⟨_, rfl, network_commands .wrapping wheels (by decide) wheelActs _ rfl 0⟩

end AkV3Driver
