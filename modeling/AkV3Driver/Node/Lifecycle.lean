import AkV3Driver.Node.Independence

/-!
# From the start of the receive thread to the end of the node

The owner's thread constructs the node, spins the executor and destroys the node; the
receive thread polls until it finds its flag cleared. Members are destroyed after the
join, the queues before the socket. A timer that cannot be created unwinds the
constructor instead, past queues that are gone, to the thread that is still joinable.
-/

namespace AkV3Driver
open Protocol (StatusFrame ExtendedPositionFrame)

/-- The receive thread, at the points where another thread may run. -/
inductive RxThread
  | notStarted
  | loopHead
  | receiving
  | received (read : SocketRead)
  | exited

inductive Owner
  | constructing
  | threadStarted
  | spinning
  | joining
  | joined
  | queuesDestroyed
  | socketClosed
  | unwinding
  | terminated
deriving DecidableEq

structure Process where
  owner : Owner := .constructing
  rxThread : RxThread := .notStarted
  rxThreadRunning : Bool := false
  threaded : ThreadedState := {}

inductive ProcessAction
  | startThread
  | createTimer
  | timerThrows
  | terminate
  | callback (act : ThreadedAction)
  | clearFlag
  | join
  | destroyQueues
  | closeSocket
  | checkFlag
  | receive (read : SocketRead)
  | store

def ThreadedAction.isCallback : ThreadedAction → Bool
  | .event e => e.isCallback
  | _ => true

def RxThread.held : RxThread → List SocketRead
  | .received read => [read]
  | _ => []

/-- The members that the receive thread uses all exist. -/
def Owner.membersAlive : Owner → Bool
  | .constructing | .threadStarted | .spinning | .joining | .joined => true
  | _ => false

def ProcessAction.ofRxThread : ProcessAction → Bool
  | .checkFlag | .receive _ | .store => true
  | _ => false

section Machine
variable (conv : FloatCast) (cfg : NodeConfig)

def ownerStep (p : Process) (source target : Owner) : Option Process :=
  if p.owner = source then some { p with owner := target } else none

def processStep (p : Process) : ProcessAction → Option Process
  | .startThread =>
    if p.owner = .constructing then
      some { p with owner := .threadStarted, rxThread := .loopHead, rxThreadRunning := true }
    else none
  | .createTimer => ownerStep p .threadStarted .spinning
  | .timerThrows => ownerStep p .threadStarted .unwinding
  | .terminate => ownerStep p .unwinding .terminated
  | .callback act =>
    if p.owner = .spinning ∧ act.isCallback then
      (executorStep conv cfg p.threaded act).map fun t => { p with threaded := t }
    else none
  | .clearFlag =>
    if p.owner = .spinning ∧ p.threaded.Idle then
      some { p with owner := .joining, rxThreadRunning := false }
    else none
  | .join =>
    match p.rxThread with
    | .exited => ownerStep p .joining .joined
    | _ => none
  | .destroyQueues => ownerStep p .joined .queuesDestroyed
  | .closeSocket => ownerStep p .queuesDestroyed .socketClosed
  -- the end of the process ends the thread with it
  | .checkFlag =>
    match p.rxThread with
    | .loopHead =>
      if p.owner = .terminated then none
      else some { p with rxThread := if p.rxThreadRunning then .receiving else .exited }
    | _ => none
  | .receive read =>
    match p.rxThread with
    | .receiving =>
      if p.owner = .terminated then none else some { p with rxThread := .received read }
    | _ => none
  | .store =>
    match p.rxThread with
    | .received read =>
      if p.owner = .terminated then none
      else some { p with
        rxThread := .loopHead
        threaded := { p.threaded with node := rxThreadMain cfg p.threaded.node read } }
    | _ => none

variable {conv cfg} {p p' : Process}

theorem ownerStep_eq_some {source target : Owner} (h : ownerStep p source target = some p') :
    p.owner = source ∧ p' = { p with owner := target } := by
  simp only [ownerStep] at h
  split_ifs at h with ho
  exact ⟨ho, (Option.some.inj h).symm⟩

theorem processStep_startThread (h : processStep conv cfg p .startThread = some p') :
    p.owner = .constructing ∧
      p' = { p with owner := .threadStarted, rxThread := .loopHead, rxThreadRunning := true } := by
  simp only [processStep] at h
  split_ifs at h with ho
  exact ⟨ho, (Option.some.inj h).symm⟩

theorem processStep_callback {act : ThreadedAction}
    (h : processStep conv cfg p (.callback act) = some p') :
    p.owner = .spinning ∧ act.isCallback ∧
      ∃ t, executorStep conv cfg p.threaded act = some t ∧ p' = { p with threaded := t } := by
  simp only [processStep] at h
  split_ifs at h with ho
  obtain ⟨t, ht, rfl⟩ := Option.map_eq_some_iff.mp h
  exact ⟨ho.1, ho.2, t, ht, rfl⟩

theorem processStep_clearFlag (h : processStep conv cfg p .clearFlag = some p') :
    p.owner = .spinning ∧ p.threaded.Idle ∧
      p' = { p with owner := .joining, rxThreadRunning := false } := by
  simp only [processStep] at h
  split_ifs at h with ho
  exact ⟨ho.1, ho.2, (Option.some.inj h).symm⟩

theorem processStep_join (h : processStep conv cfg p .join = some p') :
    p.rxThread = .exited ∧ p.owner = .joining ∧ p' = { p with owner := .joined } := by
  simp only [processStep] at h
  split at h
  · next hx => exact ⟨hx, ownerStep_eq_some h⟩
  · cases h

theorem processStep_checkFlag (h : processStep conv cfg p .checkFlag = some p') :
    p.rxThread = .loopHead ∧ p.owner ≠ .terminated ∧
      p' = { p with rxThread := if p.rxThreadRunning then .receiving else .exited } := by
  simp only [processStep] at h
  split at h
  · next hx =>
    split_ifs at h with ho
    all_goals exact ⟨hx, ho, by simp_all⟩
  · cases h

theorem processStep_receive {read : SocketRead}
    (h : processStep conv cfg p (.receive read) = some p') :
    p.rxThread = .receiving ∧ p.owner ≠ .terminated ∧
      p' = { p with rxThread := .received read } := by
  simp only [processStep] at h
  split at h
  · next hx =>
    split_ifs at h with ho
    exact ⟨hx, ho, (Option.some.inj h).symm⟩
  · cases h

theorem processStep_store (h : processStep conv cfg p .store = some p') :
    ∃ read, p.rxThread = .received read ∧ p.owner ≠ .terminated ∧
      p' = { p with
        rxThread := .loopHead
        threaded := { p.threaded with node := rxThreadMain cfg p.threaded.node read } } := by
  simp only [processStep] at h
  split at h
  · next read hx =>
    split_ifs at h with ho
    exact ⟨read, hx, ho, (Option.some.inj h).symm⟩
  · cases h

end Machine

section Safety
variable (conv : FloatCast) (cfg : NodeConfig)

def Owner.running : Owner → Bool
  | .threadStarted | .spinning | .unwinding | .terminated => true
  | _ => false

def Owner.afterJoin : Owner → Bool
  | .joined | .queuesDestroyed | .socketClosed => true
  | _ => false

def Owner.unwound : Owner → Bool
  | .unwinding | .terminated => true
  | _ => false

def Owner.beforeSpin : Owner → Bool
  | .constructing | .threadStarted | .unwinding | .terminated => true
  | _ => false

/-- The node has neither published nor sent nor answered anything. -/
def NodeState.Silent (s : NodeState) : Prop :=
  s.states = [] ∧ s.diagnostics = [] ∧ s.sent = [] ∧ s.responses = []

structure Joinable (acts : List ProcessAction) (p : Process) : Prop where
  running : p.rxThreadRunning = p.owner.running
  started : p.rxThread = .notStarted ↔ p.owner = .constructing
  joined : p.owner.afterJoin → p.rxThread = .exited
  unwound : p.owner.unwound ↔ .timerThrows ∈ acts
  silent : p.owner.beforeSpin → p.threaded.node.Silent

theorem run_rx_outputs (reads : List SocketRead) (s : NodeState) :
    SameOutputs s (run conv cfg s (reads.map .rx)) := by
  induction reads generalizing s with
  | nil => exact ⟨rfl, rfl, rfl, rfl, rfl⟩
  | cons read reads ih =>
    obtain ⟨h1, h2, h3, h4, h5⟩ := rxThreadMain_outputs cfg s read
    obtain ⟨h1', h2', h3', h4', h5'⟩ := ih (rxThreadMain cfg s read)
    exact ⟨h1'.trans h1, h2'.trans h2, h3'.trans h3, h4'.trans h4, h5'.trans h5⟩

variable {cfg} {acts : List ProcessAction} {p : Process}

theorem Joinable.move (hj : Joinable acts p) (act : ProcessAction) {target : Owner}
    (hrun : target.running = p.owner.running)
    (hstart : target = .constructing ↔ p.owner = .constructing)
    (hjoin : target.afterJoin → p.rxThread = .exited)
    (hunw : target.unwound ↔ p.owner.unwound ∨ act = .timerThrows)
    (hspin : target.beforeSpin → p.owner.beforeSpin) :
    Joinable (acts ++ [act]) { p with owner := target } where
  running := hj.running.trans hrun.symm
  started := hj.started.trans hstart.symm
  joined := hjoin
  unwound := by
    rw [hunw, hj.unwound]
    simp [eq_comm]
  silent h := hj.silent (hspin h)

theorem Joinable.rx (hj : Joinable acts p) {act : ProcessAction} (hact : act.ofRxThread)
    {x : RxThread} {t : ThreadedState} (hx : p.rxThread ≠ .notStarted)
    (hx' : x ≠ .notStarted) (hexit : p.rxThread ≠ .exited)
    (hsilent : p.threaded.node.Silent → t.node.Silent) :
    Joinable (acts ++ [act]) { p with rxThread := x, threaded := t } where
  running := hj.running
  started := by simp [hx', hj.started.not.mp hx]
  joined h := absurd (hj.joined h) hexit
  unwound := by
    have hne : ProcessAction.timerThrows ≠ act :=
      fun h => by simp [← h, ProcessAction.ofRxThread] at hact
    rw [hj.unwound]
    simp [hne]
  silent h := hsilent (hj.silent h)

theorem joinable_step (conv : FloatCast) (acts : List ProcessAction) (p : Process)
    (act : ProcessAction) (p' : Process) (hj : Joinable acts p)
    (h : processStep conv cfg p act = some p') : Joinable (acts ++ [act]) p' := by
  cases act with
  | startThread =>
    obtain ⟨ho, rfl⟩ := processStep_startThread h
    exact ⟨rfl, by simp, by simp [Owner.afterJoin], by simpa [ho, Owner.unwound] using hj.unwound,
      fun _ => hj.silent (by rw [ho]; rfl)⟩
  | createTimer =>
    obtain ⟨ho, rfl⟩ := ownerStep_eq_some h
    exact hj.move _ (by rw [ho]; rfl) (by simp [ho]) (by simp [Owner.afterJoin])
      (by simp [ho, Owner.unwound]) (by simp [Owner.beforeSpin])
  | timerThrows =>
    obtain ⟨ho, rfl⟩ := ownerStep_eq_some h
    exact hj.move _ (by rw [ho]; rfl) (by simp [ho]) (by simp [Owner.afterJoin])
      (by simp [Owner.unwound]) (by simp [ho, Owner.beforeSpin])
  | terminate =>
    obtain ⟨ho, rfl⟩ := ownerStep_eq_some h
    exact hj.move _ (by rw [ho]; rfl) (by simp [ho]) (by simp [Owner.afterJoin])
      (by simp [ho, Owner.unwound]) (by simp [ho, Owner.beforeSpin])
  | callback act =>
    obtain ⟨ho, -, t, -, rfl⟩ := processStep_callback h
    exact ⟨hj.running, hj.started, hj.joined, by simpa using hj.unwound,
      by simp [ho, Owner.beforeSpin]⟩
  | clearFlag =>
    obtain ⟨ho, -, rfl⟩ := processStep_clearFlag h
    exact ⟨rfl, by simp [hj.started, ho], by simp [Owner.afterJoin],
      by simpa [ho, Owner.unwound] using hj.unwound, by simp [Owner.beforeSpin]⟩
  | join =>
    obtain ⟨hx, ho, rfl⟩ := processStep_join h
    exact hj.move _ (by rw [ho]; rfl) (by simp [ho]) (fun _ => hx)
      (by simp [ho, Owner.unwound]) (by simp [Owner.beforeSpin])
  | destroyQueues =>
    obtain ⟨ho, rfl⟩ := ownerStep_eq_some h
    exact hj.move _ (by rw [ho]; rfl) (by simp [ho]) (fun _ => hj.joined (by rw [ho]; rfl))
      (by simp [ho, Owner.unwound]) (by simp [Owner.beforeSpin])
  | closeSocket =>
    obtain ⟨ho, rfl⟩ := ownerStep_eq_some h
    exact hj.move _ (by rw [ho]; rfl) (by simp [ho]) (fun _ => hj.joined (by rw [ho]; rfl))
      (by simp [ho, Owner.unwound]) (by simp [Owner.beforeSpin])
  | checkFlag =>
    obtain ⟨hx, -, rfl⟩ := processStep_checkFlag h
    refine hj.rx rfl (by simp [hx]) ?_ (by simp [hx]) id
    split <;> simp
  | receive read =>
    obtain ⟨hx, -, rfl⟩ := processStep_receive h
    exact hj.rx rfl (by simp [hx]) (by simp) (by simp [hx]) id
  | store =>
    obtain ⟨read, hx, -, rfl⟩ := processStep_store h
    refine hj.rx rfl (by simp [hx]) (by simp) (by simp [hx]) fun hs => ?_
    have hout := rxThreadMain_outputs cfg p.threaded.node read
    simpa only [NodeState.Silent, hout.states, hout.diagnostics, hout.sent, hout.responses] using hs

theorem joinable {conv : FloatCast}
    (h : Runs.guardedRun (processStep conv cfg) {} acts = some p) : Joinable acts p :=
  Runs.guardedRun_history (joinable_step conv) []
    ⟨rfl, by simp, by simp [Owner.afterJoin], by simp [Owner.unwound],
      fun _ => ⟨rfl, rfl, rfl, rfl⟩⟩ h

theorem processStep_ofRxThread {conv : FloatCast} {act : ProcessAction} {p' : Process}
    (hact : act.ofRxThread) (h : processStep conv cfg p act = some p') :
    p.rxThread ≠ .notStarted ∧ p.rxThread ≠ .exited ∧ p.owner ≠ .terminated := by
  cases act with
  | checkFlag =>
    obtain ⟨hx, ho, -⟩ := processStep_checkFlag h
    simp [hx, ho]
  | receive read =>
    obtain ⟨hx, ho, -⟩ := processStep_receive h
    simp [hx, ho]
  | store =>
    obtain ⟨read, hx, ho, -⟩ := processStep_store h
    simp [hx, ho]
  | _ => simp [ProcessAction.ofRxThread] at hact

theorem Joinable.membersAlive (hj : Joinable acts p) (hexit : p.rxThread ≠ .exited)
    (hterm : p.owner ≠ .terminated) (hthrow : .timerThrows ∉ acts) : p.owner.membersAlive := by
  have hunw := hj.unwound.not.mpr hthrow
  have hafter : ¬p.owner.afterJoin := fun h => hexit (hj.joined h)
  cases ho : p.owner <;> simp_all [Owner.membersAlive, Owner.unwound, Owner.afterJoin]

end Safety

/-- The receive thread touches no destroyed member, except where the timer could not be
created; and there the node has published, sent and answered nothing. -/
theorem rxThread_members_alive (conv : FloatCast) (cfg : NodeConfig) (acts : List ProcessAction)
    (p : Process) (h : Runs.guardedRun (processStep conv cfg) {} acts = some p) :
    (∀ act p', act.ofRxThread → processStep conv cfg p act = some p' →
      .timerThrows ∉ acts → p.owner.membersAlive) ∧
    (.timerThrows ∈ acts → ¬p.owner.membersAlive ∧ p.threaded.node.Silent) := by
  have hj := joinable h
  refine ⟨fun act p' hact hstep hthrow => ?_, fun hthrow => ?_⟩
  · obtain ⟨-, hexit, hterm⟩ := processStep_ofRxThread hact hstep
    exact hj.membersAlive hexit hterm hthrow
  · have hunw := hj.unwound.mpr hthrow
    cases ho : p.owner <;> simp [ho, Owner.unwound] at hunw
    all_goals exact ⟨by simp [Owner.membersAlive], hj.silent (by rw [ho]; rfl)⟩

/-- The receive thread goes on while the owner waits for it; where the timer could not be
created it goes on too, and its queues are gone. -/
theorem rxThread_members_alive_joined :
    (∃ p, Runs.guardedRun (processStep .wrapping (ak80Node false)) {}
        [.startThread, .checkFlag, .createTimer, .clearFlag, .receive .notReady] = some p ∧
      (processStep .wrapping (ak80Node false) p .store).isSome ∧ p.owner.membersAlive) ∧
    ∃ p, Runs.guardedRun (processStep .wrapping (ak80Node false)) {}
        [.startThread, .checkFlag, .timerThrows] = some p ∧
      (processStep .wrapping (ak80Node false) p (.receive .notReady)).isSome ∧
      ¬p.owner.membersAlive ∧ p.threaded.node.Silent := by
  obtain ⟨halive, -⟩ := rxThread_members_alive .wrapping (ak80Node false)
    [.startThread, .checkFlag, .createTimer, .clearFlag, .receive .notReady] _ rfl
  obtain ⟨-, hgone⟩ := rxThread_members_alive .wrapping (ak80Node false)
    [.startThread, .checkFlag, .timerThrows] _ rfl
  exact ⟨⟨_, rfl, rfl, halive .store _ rfl rfl (by simp)⟩, _, rfl, rfl, hgone (by simp)⟩

section Shutdown
variable (conv : FloatCast) (cfg : NodeConfig)

def Owner.closing : Owner → Bool
  | .joining | .joined | .queuesDestroyed | .socketClosed => true
  | _ => false

/-- Steps that the receive thread has left once its flag is cleared. -/
def RxThread.left : RxThread → ℕ
  | .receiving => 3
  | .received _ => 2
  | .loopHead => 1
  | _ => 0

def Owner.left : Owner → ℕ
  | .joining => 3
  | .joined => 2
  | .queuesDestroyed => 1
  | _ => 0

def Process.left (p : Process) : ℕ := p.rxThread.left + p.owner.left

/-- Reads that the receive thread may still store once its flag is cleared. -/
def RxThread.pending : RxThread → ℕ
  | .receiving | .received _ => 1
  | _ => 0

/-- What happens to the node `p` between the cleared flag and `p'`, in `k` steps. -/
structure Closing (p p' : Process) (k : ℕ) : Prop where
  flag : p'.rxThreadRunning = false
  started : p'.rxThread ≠ .notStarted
  owner : p'.owner.closing
  left : k + p'.left = p.left
  stored : ∃ reads : List SocketRead, reads.length + p'.rxThread.pending ≤ p.rxThread.pending ∧
    p'.threaded = { p.threaded with node := run conv cfg p.threaded.node (reads.map .rx) }

variable {conv cfg} {p : Process}

theorem closing_step (acts : List ProcessAction) (q : Process) (act : ProcessAction)
    (q' : Process) (hc : Closing conv cfg p q acts.length)
    (h : processStep conv cfg q act = some q') :
    Closing conv cfg p q' (acts ++ [act]).length := by
  obtain ⟨hflag, hstart, howner, hleft, reads, hlen, hreads⟩ := hc
  rw [List.length_append, List.length_singleton]
  cases act with
  | startThread =>
    obtain ⟨ho, -⟩ := processStep_startThread h
    simp [ho, Owner.closing] at howner
  | createTimer =>
    obtain ⟨ho, -⟩ := ownerStep_eq_some h
    simp [ho, Owner.closing] at howner
  | timerThrows =>
    obtain ⟨ho, -⟩ := ownerStep_eq_some h
    simp [ho, Owner.closing] at howner
  | terminate =>
    obtain ⟨ho, -⟩ := ownerStep_eq_some h
    simp [ho, Owner.closing] at howner
  | callback act =>
    obtain ⟨ho, -⟩ := processStep_callback h
    simp [ho, Owner.closing] at howner
  | clearFlag =>
    obtain ⟨ho, -⟩ := processStep_clearFlag h
    simp [ho, Owner.closing] at howner
  | join =>
    obtain ⟨hx, ho, rfl⟩ := processStep_join h
    refine ⟨hflag, hstart, rfl, ?_, reads, hlen, hreads⟩
    simp only [Process.left, ho, Owner.left] at hleft ⊢
    omega
  | destroyQueues =>
    obtain ⟨ho, rfl⟩ := ownerStep_eq_some h
    refine ⟨hflag, hstart, rfl, ?_, reads, hlen, hreads⟩
    simp only [Process.left, ho, Owner.left] at hleft ⊢
    omega
  | closeSocket =>
    obtain ⟨ho, rfl⟩ := ownerStep_eq_some h
    refine ⟨hflag, hstart, rfl, ?_, reads, hlen, hreads⟩
    simp only [Process.left, ho, Owner.left] at hleft ⊢
    omega
  | checkFlag =>
    obtain ⟨hx, -, rfl⟩ := processStep_checkFlag h
    rw [hflag]
    refine ⟨rfl, by simp, howner, ?_, reads, ?_, hreads⟩
    · simp only [Process.left, hx, RxThread.left] at hleft ⊢
      simp
      omega
    · simpa [hx, RxThread.pending] using hlen
  | receive read =>
    obtain ⟨hx, -, rfl⟩ := processStep_receive h
    refine ⟨hflag, by simp, howner, ?_, reads, ?_, hreads⟩
    · simp only [Process.left, hx, RxThread.left] at hleft ⊢
      omega
    · simpa [hx, RxThread.pending] using hlen
  | store =>
    obtain ⟨read, hx, -, rfl⟩ := processStep_store h
    refine ⟨hflag, by simp, howner, ?_, reads ++ [read], ?_, ?_⟩
    · simp only [Process.left, hx, RxThread.left] at hleft ⊢
      omega
    · simpa [hx, RxThread.pending] using hlen
    · simp [hreads, run, Runs.run_append, step]

/-- The destructor never waits for ever: some step is possible until the socket is closed. -/
theorem closing_progress {q : Process} {k : ℕ} (hc : Closing conv cfg p q k)
    (hstuck : ∀ act, processStep conv cfg q act = none) : q.owner = .socketClosed := by
  obtain ⟨hflag, hstart, howner, -, -⟩ := hc
  have hterm : q.owner ≠ .terminated := fun h => by simp [h, Owner.closing] at howner
  cases hx : q.rxThread with
  | notStarted => exact absurd hx hstart
  | loopHead => simpa [processStep, hx, hterm] using hstuck .checkFlag
  | receiving => simpa [processStep, hx, hterm] using hstuck (.receive .notReady)
  | received read => simpa [processStep, hx, hterm] using hstuck .store
  | exited =>
    have hjoin := hstuck .join
    have hqueues := hstuck .destroyQueues
    have hsocket := hstuck .closeSocket
    simp only [processStep, ownerStep, hx] at hjoin hqueues hsocket
    cases ho : q.owner <;> simp_all [Owner.closing]

theorem left_le (p : Process) : p.left ≤ 6 := by
  have hx : p.rxThread.left ≤ 3 := by cases p.rxThread <;> simp [RxThread.left]
  have ho : p.owner.left ≤ 3 := by cases p.owner <;> simp [Owner.left]
  simp only [Process.left]
  omega

theorem pending_le (x : RxThread) : x.pending ≤ 1 := by cases x <;> simp [RxThread.pending]

end Shutdown

/-- Once the flag is cleared the node is gone after at most six steps, of which none can
block; it stores at most one more read and publishes, sends and answers nothing. -/
theorem shutdown_bounded (conv : FloatCast) (cfg : NodeConfig) (acts : List ProcessAction)
    (p : Process) (h : Runs.guardedRun (processStep conv cfg) {} acts = some p)
    (hjoining : p.owner = .joining) (acts' : List ProcessAction) (p' : Process)
    (h' : Runs.guardedRun (processStep conv cfg) p acts' = some p') :
    acts'.length ≤ 6 ∧
    ((∀ act, processStep conv cfg p' act = none) → p'.owner = .socketClosed) ∧
    (∃ reads : List SocketRead, reads.length ≤ 1 ∧
      p'.threaded = { p.threaded with node := run conv cfg p.threaded.node (reads.map .rx) }) ∧
    SameOutputs p.threaded.node p'.threaded.node := by
  have hj := joinable h
  have hstart : p.rxThread ≠ .notStarted := hj.started.not.mpr (by simp [hjoining])
  have hflag : p.rxThreadRunning = false := by rw [hj.running, hjoining]; rfl
  have hinit : Closing conv cfg p p ([] : List ProcessAction).length :=
    ⟨hflag, hstart, by rw [hjoining]; rfl, by simp, [], by simp, rfl⟩
  have hc : Closing conv cfg p p' ([] ++ acts').length :=
    Runs.guardedRun_history closing_step [] hinit h'
  obtain ⟨reads, hlen, hreads⟩ := hc.stored
  have hleft := hc.left
  have hle := left_le p
  have hpending := pending_le p.rxThread
  rw [List.nil_append] at hleft
  refine ⟨by omega, closing_progress hc, ⟨reads, by omega, hreads⟩, ?_⟩
  rw [hreads]
  exact run_rx_outputs conv cfg reads p.threaded.node

theorem shutdown_bounded_store :
    ∃ p p', Runs.guardedRun (processStep .wrapping (ak80Node false)) {}
        [.startThread, .createTimer, .checkFlag, .clearFlag] = some p ∧
      Runs.guardedRun (processStep .wrapping (ak80Node false)) p
        [.receive (zeroRead 1 Protocol.funcIdStatus), .store, .checkFlag, .join] = some p' ∧
      ([ProcessAction.receive (zeroRead 1 Protocol.funcIdStatus), .store, .checkFlag,
          .join].length ≤ 6 ∧
        ((∀ act, processStep .wrapping (ak80Node false) p' act = none) →
          p'.owner = .socketClosed) ∧
        (∃ reads : List SocketRead, reads.length ≤ 1 ∧
          p'.threaded = { p.threaded with
            node := run .wrapping (ak80Node false) p.threaded.node (reads.map .rx) }) ∧
        SameOutputs p.threaded.node p'.threaded.node) :=
  ⟨_, _, rfl, rfl, shutdown_bounded .wrapping (ak80Node false)
    [.startThread, .createTimer, .checkFlag, .clearFlag] _ rfl rfl _ _ rfl⟩

section Life
variable (conv : FloatCast) (cfg : NodeConfig)

def ProcessAction.readOf : ProcessAction → Option SocketRead
  | .receive read => some read
  | _ => none

def ProcessAction.callbacks : ProcessAction → List Event
  | .callback act => atomicEvents act
  | _ => []

def Event.readOf : Event → Option SocketRead
  | .rx read => some read
  | _ => none

/-- The life of the process so far is a run of the node: on all reads but the one in the
receive thread's hands, and on all callbacks. -/
def Lived (acts : List ProcessAction) (p : Process) : Prop :=
  ∃ es, p.threaded.finish cfg = run conv cfg {} es ∧
    es.filterMap Event.readOf ++ p.rxThread.held = acts.filterMap ProcessAction.readOf ∧
    es.filter Event.isCallback = acts.flatMap ProcessAction.callbacks

theorem atomicEvents_callbacks {act : ThreadedAction} (h : act.isCallback) :
    (atomicEvents act).filterMap Event.readOf = [] ∧
      (atomicEvents act).filter Event.isCallback = atomicEvents act := by
  cases act with
  | event e =>
    cases e with
    | rx read => exact absurd h Bool.false_ne_true
    | _ => exact ⟨rfl, rfl⟩
  | _ => exact ⟨rfl, rfl⟩

theorem lived_step {acts : List ProcessAction} {p : Process} {act : ProcessAction} {p' : Process}
    (hj : Joinable acts p) (hl : Lived conv cfg acts p)
    (h : processStep conv cfg p act = some p') : Lived conv cfg (acts ++ [act]) p' := by
  obtain ⟨es, hrun, hreads, hcalls⟩ := hl
  -- a step that neither reads, stores nor calls back
  have hidle {q : Process} (hnode : q.threaded = p.threaded)
      (hheld : q.rxThread.held = p.rxThread.held) (hread : act.readOf = none)
      (hcall : act.callbacks = []) : Lived conv cfg (acts ++ [act]) q :=
    ⟨es, by rw [hnode, hrun], by simp [hheld, hreads, hread], by simp [hcalls, hcall]⟩
  cases act with
  | startThread =>
    obtain ⟨ho, rfl⟩ := processStep_startThread h
    exact hidle rfl (by rw [hj.started.mpr ho]; rfl) rfl rfl
  | callback act =>
    obtain ⟨-, hact, t, ht, rfl⟩ := processStep_callback h
    obtain ⟨hnone, hall⟩ := atomicEvents_callbacks hact
    refine ⟨es ++ atomicEvents act, ?_, ?_, ?_⟩
    · rw [executorStep_refines conv cfg _ _ act t rfl ht, hrun, run, run, Runs.run_append]
    · simpa [hnone, ProcessAction.readOf, List.filterMap_cons] using hreads
    · simp [hcalls, hall, ProcessAction.callbacks]
  | clearFlag =>
    obtain ⟨-, -, rfl⟩ := processStep_clearFlag h
    exact hidle rfl rfl rfl rfl
  | join =>
    obtain ⟨-, -, rfl⟩ := processStep_join h
    exact hidle rfl rfl rfl rfl
  | checkFlag =>
    obtain ⟨hx, -, rfl⟩ := processStep_checkFlag h
    refine hidle rfl ?_ rfl rfl
    rw [hx]
    cases p.rxThreadRunning <;> rfl
  | receive read =>
    obtain ⟨hx, -, rfl⟩ := processStep_receive h
    refine ⟨es, hrun, ?_, by simp [hcalls, ProcessAction.callbacks]⟩
    simp [← hreads, hx, RxThread.held, ProcessAction.readOf]
  | store =>
    obtain ⟨read, hx, -, rfl⟩ := processStep_store h
    refine ⟨es ++ [.rx read], ?_, ?_, ?_⟩
    · rw [finish_rx, hrun, run, run, Runs.run_append]
      rfl
    · simpa [hx, RxThread.held, ProcessAction.readOf, Event.readOf, List.filterMap_cons]
        using hreads
    · simp [hcalls, Event.isCallback, ProcessAction.callbacks]
  | _ =>
    obtain ⟨-, rfl⟩ := ownerStep_eq_some h
    exact hidle rfl rfl rfl rfl

theorem lived {acts : List ProcessAction} {p : Process}
    (h : Runs.guardedRun (processStep conv cfg) {} acts = some p) : Lived conv cfg acts p := by
  have hstep (acts : List ProcessAction) (p : Process) (act : ProcessAction) (p' : Process)
      (hp : Joinable acts p ∧ Lived conv cfg acts p)
      (hs : processStep conv cfg p act = some p') :
      Joinable (acts ++ [act]) p' ∧ Lived conv cfg (acts ++ [act]) p' :=
    ⟨joinable_step conv acts p act p' hp.1 hs, lived_step conv cfg hp.1 hp.2 hs⟩
  have hstart : Runs.guardedRun (processStep conv cfg) {} [] = some {} := rfl
  exact (Runs.guardedRun_history hstep [] ⟨joinable hstart, [], rfl, rfl, rfl⟩ h).2

end Life

/-- The life of a process, whatever the two threads interleave, is a run of the node with
whole drains: on its callbacks in order, and on its reads in order up to the one in hand. -/
theorem process_refines (conv : FloatCast) (cfg : NodeConfig) (acts : List ProcessAction)
    (p : Process) (h : Runs.guardedRun (processStep conv cfg) {} acts = some p) :
    ∃ es, p.threaded.finish cfg = run conv cfg {} es ∧
      es.filterMap Event.readOf ++ p.rxThread.held = acts.filterMap ProcessAction.readOf ∧
      es.filter Event.isCallback = acts.flatMap ProcessAction.callbacks :=
  lived conv cfg h

theorem process_refines_drain :
    ∃ p, Runs.guardedRun (processStep .wrapping (ak80Node false)) {}
        [.startThread, .createTimer, .checkFlag, .receive (zeroRead 1 Protocol.funcIdStatus),
          .store, .callback .swap, .callback .publish] = some p ∧
      ∃ es, p.threaded.finish (ak80Node false) = run .wrapping (ak80Node false) {} es ∧
        es.filterMap Event.readOf ++ p.rxThread.held =
          [ProcessAction.startThread, .createTimer, .checkFlag,
            .receive (zeroRead 1 Protocol.funcIdStatus), .store, .callback .swap,
            .callback .publish].filterMap ProcessAction.readOf ∧
        es.filter Event.isCallback =
          [ProcessAction.startThread, .createTimer, .checkFlag,
            .receive (zeroRead 1 Protocol.funcIdStatus), .store, .callback .swap,
            .callback .publish].flatMap ProcessAction.callbacks :=
  ⟨_, rfl, process_refines .wrapping (ak80Node false) _ _ rfl⟩

section Completeness
variable (conv : FloatCast) (cfg : NodeConfig)

def spinningAt (s : NodeState) : Process := ⟨.spinning, .loopHead, true, ⟨s, [], []⟩⟩

theorem callbacks_execute (acts : List ThreadedAction) (p : Process) {t : ThreadedState}
    (howner : p.owner = .spinning) (hacts : ∀ act ∈ acts, act.isCallback)
    (h : Runs.guardedRun (executorStep conv cfg) p.threaded acts = some t) :
    Runs.guardedRun (processStep conv cfg) p (acts.map .callback) =
      some { p with threaded := t } := by
  induction acts generalizing p with
  | nil =>
    cases h
    rfl
  | cons act acts ih =>
    obtain ⟨t', ht', hrest⟩ := Runs.guardedRun_cons_eq_some.mp h
    have hact : act.isCallback := hacts act List.mem_cons_self
    rw [List.map_cons, Runs.guardedRun_cons_eq_some]
    refine ⟨{ p with threaded := t' }, ?_, ?_⟩
    · simp [processStep, howner, hact, ht']
    · exact ih { p with threaded := t' } howner
        (fun a ha => hacts a (List.mem_cons_of_mem act ha)) hrest

theorem drainActions_callbacks (s : NodeState) :
    (∀ act ∈ drainActions s, act.isCallback) ∧
      (drainActions s).flatMap atomicEvents = [.drain] := by
  constructor
  · intro act hact
    simp only [drainActions, List.mem_append, List.mem_singleton, List.mem_replicate] at hact
    rcases hact with (rfl | ⟨-, rfl⟩) | ⟨-, rfl⟩ <;> rfl
  · have hquiet (n : ℕ) (act : ThreadedAction) (h : atomicEvents act = []) :
        (List.replicate n act).flatMap atomicEvents = [] := by
      rw [List.flatMap_eq_nil_iff]
      intro a ha
      rwa [List.eq_of_mem_replicate ha]
    rw [drainActions, List.flatMap_append, List.flatMap_append, hquiet _ .applyExt rfl,
      hquiet _ .publish rfl]
    rfl

theorem event_executes (s : NodeState) (e : Event) :
    ∃ acts, Runs.guardedRun (processStep conv cfg) (spinningAt s) acts =
        some (spinningAt (step conv cfg s e)) ∧
      acts.filterMap ProcessAction.readOf = (Event.readOf e).toList ∧
      acts.flatMap ProcessAction.callbacks = [e].filter Event.isCallback := by
  have hnoreads (acts : List ThreadedAction) :
      (acts.map ProcessAction.callback).filterMap ProcessAction.readOf = [] := by
    rw [List.filterMap_eq_nil_iff]
    intro act hact
    obtain ⟨a, -, rfl⟩ := List.mem_map.mp hact
    rfl
  have hcall (acts : List ThreadedAction) :
      (acts.map ProcessAction.callback).flatMap ProcessAction.callbacks =
        acts.flatMap atomicEvents := List.flatMap_map ..
  cases e with
  | rx read => exact ⟨[.checkFlag, .receive read, .store], rfl, rfl, rfl⟩
  | drain =>
    obtain ⟨hacts, hdrain⟩ := drainActions_callbacks s
    refine ⟨(drainActions s).map .callback, ?_, hnoreads _, (hcall _).trans hdrain⟩
    exact callbacks_execute conv cfg _ (spinningAt s) rfl hacts (drain_executes conv cfg s)
  | _ => exact ⟨[.callback (.event _)], rfl, rfl, rfl⟩

theorem events_execute (es : List Event) (s : NodeState) :
    ∃ acts, Runs.guardedRun (processStep conv cfg) (spinningAt s) acts =
        some (spinningAt (run conv cfg s es)) ∧
      acts.filterMap ProcessAction.readOf = es.filterMap Event.readOf ∧
      acts.flatMap ProcessAction.callbacks = es.filter Event.isCallback := by
  induction es generalizing s with
  | nil => exact ⟨[], rfl, rfl, rfl⟩
  | cons e es ih =>
    obtain ⟨acts, hacts, hreads, hcalls⟩ := event_executes conv cfg s e
    obtain ⟨acts', hacts', hreads', hcalls'⟩ := ih (step conv cfg s e)
    refine ⟨acts ++ acts', ?_, ?_, ?_⟩
    · rw [Runs.guardedRun_append, hacts]
      exact hacts'
    · rw [List.filterMap_append, hreads, hreads']
      cases hread : Event.readOf e <;> simp [hread]
    · rw [List.flatMap_append, hcalls, hcalls', ← List.filter_append, List.singleton_append]

end Completeness

/-- Nothing that the node with whole drains can do is out of reach of the two threads: every
list of events has a schedule with these reads and these callbacks, in their order. -/
theorem process_executes (conv : FloatCast) (cfg : NodeConfig) (es : List Event) :
    ∃ acts p, Runs.guardedRun (processStep conv cfg) {} acts = some p ∧ p.owner = .spinning ∧
      p.threaded = ⟨run conv cfg {} es, [], []⟩ ∧
      acts.filterMap ProcessAction.readOf = es.filterMap Event.readOf ∧
      acts.flatMap ProcessAction.callbacks = es.filter Event.isCallback := by
  obtain ⟨acts, hacts, hreads, hcalls⟩ := events_execute conv cfg es {}
  exact ⟨.startThread :: .createTimer :: acts, spinningAt (run conv cfg {} es), hacts, rfl, rfl,
    hreads, hcalls⟩

end AkV3Driver
