import AkV3Driver.Lib.Runs
import Mathlib.Logic.Function.Basic

/-!
# Machines on a broadcast medium

Machines queue messages for a shared medium, which delivers them one at a time to
any of the machines, in any order between the senders. Strangers speak on the same
medium. A machine that ignores whatever the machines send behaves as if it shared
the medium with the strangers alone.
-/

namespace Broadcast

variable {ι σ α μ : Type*}

/-- A machine takes steps of its own and reads delivered messages; `emit` is what a step
queues for the medium. -/
structure Machine (σ α μ : Type*) where
  act : σ → α → Option σ
  read : σ → μ → Option σ
  emit : α → List μ

def Machine.step (M : Machine σ α μ) (s : σ) : α ⊕ μ → Option σ
  | .inl a => M.act s a
  | .inr m => M.read s m

/-- `bus` records the transmissions of the machines, with the sender. -/
structure State (ι σ μ : Type*) where
  node : ι → σ
  outbox : ι → List μ
  inbox : ι → List μ
  bus : List (ι × μ)

/-- `kept` says which machines get a transmission; the others lose it. -/
inductive Action (ι α μ : Type*)
  | act (i : ι) (a : α)
  | transmit (i : ι) (kept : ι → Bool)
  | inject (m : μ) (kept : ι → Bool)
  | read (i : ι)

def start (init : ι → σ) : State ι σ μ := ⟨init, fun _ => [], fun _ => [], []⟩

def deliver (inbox : ι → List μ) (m : μ) (kept : ι → Bool) : ι → List μ :=
  fun i => if kept i then inbox i ++ [m] else inbox i

section Medium
variable [DecidableEq ι] (M : ι → Machine σ α μ)

def step (n : State ι σ μ) : Action ι α μ → Option (State ι σ μ)
  | .act i a =>
    ((M i).act (n.node i) a).map fun s =>
      { n with
        node := Function.update n.node i s
        outbox := Function.update n.outbox i (n.outbox i ++ (M i).emit a) }
  | .transmit i kept =>
    match n.outbox i with
    | [] => none
    | m :: ms =>
      some { n with
        outbox := Function.update n.outbox i ms
        inbox := deliver n.inbox m kept
        bus := n.bus ++ [(i, m)] }
  | .inject m kept => some { n with inbox := deliver n.inbox m kept }
  | .read i =>
    match n.inbox i with
    | [] => none
    | m :: ms =>
      ((M i).read (n.node i) m).map fun s =>
        { n with node := Function.update n.node i s, inbox := Function.update n.inbox i ms }

variable {M} {n n' : State ι σ μ}

theorem step_act {i : ι} {a : α} (h : step M n (.act i a) = some n') :
    ∃ s, (M i).act (n.node i) a = some s ∧
      n' = { n with
        node := Function.update n.node i s
        outbox := Function.update n.outbox i (n.outbox i ++ (M i).emit a) } := by
  obtain ⟨s, hs, rfl⟩ := Option.map_eq_some_iff.mp h
  exact ⟨s, hs, rfl⟩

theorem step_transmit {i : ι} {kept : ι → Bool} (h : step M n (.transmit i kept) = some n') :
    ∃ m ms, n.outbox i = m :: ms ∧
      n' = { n with
        outbox := Function.update n.outbox i ms
        inbox := deliver n.inbox m kept
        bus := n.bus ++ [(i, m)] } := by
  simp only [step] at h
  split at h
  · cases h
  · next m ms hout => exact ⟨m, ms, hout, (Option.some.inj h).symm⟩

theorem step_read {i : ι} (h : step M n (.read i) = some n') :
    ∃ m ms s, n.inbox i = m :: ms ∧ (M i).read (n.node i) m = some s ∧
      n' = { n with
        node := Function.update n.node i s
        inbox := Function.update n.inbox i ms } := by
  simp only [step] at h
  split at h
  · cases h
  · next m ms hin =>
    obtain ⟨s, hs, rfl⟩ := Option.map_eq_some_iff.mp h
    exact ⟨m, ms, s, hin, hs, rfl⟩

end Medium

section Schedule
variable (i : ι)

def ownAct [DecidableEq ι] : Action ι α μ → Option α
  | .act j a => if j = i then some a else none
  | _ => none

def strange : Action ι α μ → Option μ
  | .inject m kept => if kept i then some m else none
  | _ => none

def ownActs [DecidableEq ι] (acts : List (Action ι α μ)) : List α := acts.filterMap (ownAct i)

def strangers (acts : List (Action ι α μ)) : List μ := acts.filterMap (strange i)

theorem ownActs_concat [DecidableEq ι] (acts : List (Action ι α μ)) (act : Action ι α μ) :
    ownActs i (acts ++ [act]) = ownActs i acts ++ (ownAct i act).toList := by
  cases h : ownAct i act <;> simp [ownActs, h]

theorem strangers_concat (acts : List (Action ι α μ)) (act : Action ι α μ) :
    strangers i (acts ++ [act]) = strangers i acts ++ (strange i act).toList := by
  cases h : strange i act <;> simp [strangers, h]

theorem filter_deliver (inbox : ι → List μ) (m : μ) (kept : ι → Bool) (p : μ → Bool) :
    (deliver inbox m kept i).filter p =
      (inbox i).filter p ++ (if kept i then [m] else []).filter p := by
  by_cases hk : kept i <;> simp [deliver, hk]

theorem guardedRun_concat (M : Machine σ α μ) (s : σ) (history : List (α ⊕ μ)) (x : α ⊕ μ) :
    Runs.guardedRun M.step s (history ++ [x]) =
      (Runs.guardedRun M.step s history).bind fun t => M.step t x := by
  rw [Runs.guardedRun_append]
  congr 1
  funext t
  cases h : M.step t x <;> simp [Runs.guardedRun, h]

end Schedule

section Sending
variable [DecidableEq ι] (M : ι → Machine σ α μ)

def sentBy (i : ι) (bus : List (ι × μ)) : List μ :=
  bus.filterMap fun p => if p.1 = i then some p.2 else none

theorem sentBy_concat (i j : ι) (bus : List (ι × μ)) (m : μ) :
    sentBy i (bus ++ [(j, m)]) = sentBy i bus ++ if j = i then [m] else [] := by
  by_cases h : j = i <;> simp [sentBy, h]

theorem mem_sentBy {i : ι} {bus : List (ι × μ)} {m : μ} : m ∈ sentBy i bus ↔ (i, m) ∈ bus := by
  simp only [sentBy, List.mem_filterMap]
  constructor
  · rintro ⟨⟨j, m'⟩, hmem, heq⟩
    split_ifs at heq with hj
    cases heq
    exact hj ▸ hmem
  · intro h
    exact ⟨(i, m), h, if_pos rfl⟩

/-- What the schedule makes a machine emit is on the bus or waits in its outbox, in order. -/
def Queued (acts : List (Action ι α μ)) (n : State ι σ μ) : Prop :=
  ∀ i, sentBy i n.bus ++ n.outbox i = (ownActs i acts).flatMap (M i).emit

theorem queued_step (acts : List (Action ι α μ)) (n : State ι σ μ) (act : Action ι α μ)
    (n' : State ι σ μ) (hq : Queued M acts n) (h : step M n act = some n') :
    Queued M (acts ++ [act]) n' := by
  intro i
  have hi := hq i
  rw [ownActs_concat, List.flatMap_append, ← hi]
  cases act with
  | act j a =>
    obtain ⟨s, -, rfl⟩ := step_act h
    by_cases hj : j = i
    · subst hj
      simp [ownAct]
    · simp [ownAct, hj, Function.update_of_ne (Ne.symm hj)]
  | transmit j kept =>
    obtain ⟨m, ms, hout, rfl⟩ := step_transmit h
    rw [sentBy_concat]
    by_cases hj : j = i
    · subst hj
      simp [ownAct, hout]
    · simp [ownAct, hj, Function.update_of_ne (Ne.symm hj)]
  | inject m kept =>
    cases h
    simp [ownAct]
  | read j =>
    obtain ⟨m, ms, s, -, -, rfl⟩ := step_read h
    simp [ownAct]

theorem queued {init : ι → σ} {acts : List (Action ι α μ)} {n : State ι σ μ}
    (h : Runs.guardedRun (step M) (start init) acts = some n) : Queued M acts n :=
  Runs.guardedRun_history (queued_step M) [] (fun _ => rfl) h

theorem Queued.emitted {acts : List (Action ι α μ)} {n : State ι σ μ} (hq : Queued M acts n)
    {i : ι} {m : μ} (hm : m ∈ n.outbox i ∨ (i, m) ∈ n.bus) : ∃ a, m ∈ (M i).emit a := by
  have hmem : m ∈ sentBy i n.bus ++ n.outbox i := by
    rcases hm with hm | hm
    · exact List.mem_append_right _ hm
    · exact List.mem_append_left _ (mem_sentBy.mpr hm)
  rw [hq i] at hmem
  obtain ⟨a, -, ha⟩ := List.mem_flatMap.mp hmem
  exact ⟨a, ha⟩

end Sending

section Isolation
variable [DecidableEq ι] (M : ι → Machine σ α μ) (heeds : ι → μ → Bool)

/-- No machine heeds what a machine emits, and what it does not heed leaves it unchanged. -/
structure Deaf : Prop where
  skips : ∀ i s m, heeds i m = false → (M i).read s m = some s
  emits : ∀ i j a, ∀ m ∈ (M j).emit a, heeds i m = false

/-- Machine `i` has run on its own steps and on the strangers' messages that it heeds. -/
def Alone (init : ι → σ) (i : ι) (acts : List (Action ι α μ)) (n : State ι σ μ) : Prop :=
  ∃ history : List (α ⊕ μ),
    Runs.guardedRun (M i).step (init i) history = some (n.node i) ∧
      history.filterMap Sum.getLeft? = ownActs i acts ∧
      history.filterMap Sum.getRight? ++ (n.inbox i).filter (heeds i) =
        (strangers i acts).filter (heeds i)

variable {M heeds} {init : ι → σ} {i : ι} {acts : List (Action ι α μ)}

theorem alone_act {n : State ι σ μ} {j : ι} {a : α} {s : σ} (hl : Alone M heeds init i acts n)
    (hs : (M j).act (n.node j) a = some s) :
    Alone M heeds init i (acts ++ [.act j a])
      { n with
        node := Function.update n.node j s
        outbox := Function.update n.outbox j (n.outbox j ++ (M j).emit a) } := by
  obtain ⟨history, hrun, hacts, hreads⟩ := hl
  by_cases hj : j = i
  · subst hj
    refine ⟨history ++ [.inl a], ?_, ?_, ?_⟩
    · simp [guardedRun_concat, hrun, Machine.step, hs]
    · simp [ownActs_concat, ownAct, hacts]
    · simpa [strangers_concat, strange, List.filterMap_cons] using hreads
  · refine ⟨history, ?_, ?_, ?_⟩
    · simpa [Function.update_of_ne (Ne.symm hj)] using hrun
    · simpa [ownActs_concat, ownAct, hj] using hacts
    · simpa [strangers_concat, strange] using hreads

theorem alone_transmit {n : State ι σ μ} {j : ι} {m : μ} {ms : List μ} {kept : ι → Bool}
    (hl : Alone M heeds init i acts n) (hm : heeds i m = false) :
    Alone M heeds init i (acts ++ [.transmit j kept])
      { n with
        outbox := Function.update n.outbox j ms
        inbox := deliver n.inbox m kept
        bus := n.bus ++ [(j, m)] } := by
  obtain ⟨history, hrun, hacts, hreads⟩ := hl
  refine ⟨history, hrun, ?_, ?_⟩
  · simpa [ownActs_concat, ownAct] using hacts
  · by_cases hk : kept i <;> simpa [strangers_concat, strange, filter_deliver, hk, hm] using hreads

theorem alone_inject {n : State ι σ μ} {m : μ} {kept : ι → Bool}
    (hl : Alone M heeds init i acts n) :
    Alone M heeds init i (acts ++ [.inject m kept])
      { n with inbox := deliver n.inbox m kept } := by
  obtain ⟨history, hrun, hacts, hreads⟩ := hl
  refine ⟨history, hrun, ?_, ?_⟩
  · simpa [ownActs_concat, ownAct] using hacts
  · by_cases hk : kept i <;>
      simp [strangers_concat, strange, filter_deliver, hk, ← hreads]

theorem alone_read (hdeaf : Deaf M heeds) {n : State ι σ μ} {j : ι} {m : μ} {ms : List μ} {s : σ}
    (hl : Alone M heeds init i acts n) (hin : n.inbox j = m :: ms)
    (hs : (M j).read (n.node j) m = some s) :
    Alone M heeds init i (acts ++ [.read j])
      { n with node := Function.update n.node j s, inbox := Function.update n.inbox j ms } := by
  obtain ⟨history, hrun, hacts, hreads⟩ := hl
  by_cases hj : j = i
  · subst hj
    by_cases hm : heeds j m
    · refine ⟨history ++ [.inr m], ?_, ?_, ?_⟩
      · simp [guardedRun_concat, hrun, Machine.step, hs]
      · simpa [ownActs_concat, ownAct, List.filterMap_cons] using hacts
      · simpa [strangers_concat, strange, hin, hm] using hreads
    · -- an unheeded message leaves the history, and the state, as they were
      have hm' : heeds j m = false := by simpa using hm
      obtain rfl : n.node j = s := Option.some.inj ((hdeaf.skips j _ m hm').symm.trans hs)
      refine ⟨history, ?_, ?_, ?_⟩
      · simpa using hrun
      · simpa [ownActs_concat, ownAct] using hacts
      · simpa [strangers_concat, strange, hin, hm] using hreads
  · refine ⟨history, ?_, ?_, ?_⟩
    · simpa [Function.update_of_ne (Ne.symm hj)] using hrun
    · simpa [ownActs_concat, ownAct] using hacts
    · simpa [strangers_concat, strange, Function.update_of_ne (Ne.symm hj)] using hreads

theorem alone_step (hdeaf : Deaf M heeds) (acts : List (Action ι α μ)) (n : State ι σ μ)
    (act : Action ι α μ) (n' : State ι σ μ) (hl : Queued M acts n ∧ Alone M heeds init i acts n)
    (h : step M n act = some n') :
    Queued M (acts ++ [act]) n' ∧ Alone M heeds init i (acts ++ [act]) n' := by
  obtain ⟨hq, hl⟩ := hl
  refine ⟨queued_step M acts n act n' hq h, ?_⟩
  cases act with
  | act j a =>
    obtain ⟨s, hs, rfl⟩ := step_act h
    exact alone_act hl hs
  | transmit j kept =>
    obtain ⟨m, ms, hout, rfl⟩ := step_transmit h
    obtain ⟨a, ha⟩ := hq.emitted M (i := j) (.inl (hout ▸ List.mem_cons_self))
    exact alone_transmit hl (hdeaf.emits i j a m ha)
  | inject m kept =>
    obtain rfl := Option.some.inj h
    exact alone_inject hl
  | read j =>
    obtain ⟨m, ms, s, hin, hs, rfl⟩ := step_read h
    exact alone_read hdeaf hl hin hs

theorem alone (hdeaf : Deaf M heeds) {n : State ι σ μ}
    (h : Runs.guardedRun (step M) (start init) acts = some n) (i : ι) :
    Alone M heeds init i acts n :=
  (Runs.guardedRun_history (P := fun acts n => Queued M acts n ∧ Alone M heeds init i acts n)
    (alone_step hdeaf) [] ⟨fun _ => rfl, [], rfl, rfl, rfl⟩ h).2

end Isolation

end Broadcast
