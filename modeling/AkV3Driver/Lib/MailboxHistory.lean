import AkV3Driver.Lib.Mailbox

/-!
# Where a delivery comes from

A run that never forgets is read back: each delivered item is traced to its arrival
and to the first drain after it, and the side value that goes with it is the newest
one to arrive before that drain. The last section pulls such a trace back to the
actions of a machine of which the run is an image.
-/

namespace Mailbox
open Runs (run)

variable {α β : Type*} {ops : List (Op α β)} {n : ℕ} {a : α} {p : α × Option β}

/-- Item number `n` has arrived as `a`, and no drain came since. -/
def Waits (ops : List (Op α β)) (n : ℕ) (a : α) : Prop :=
  ∃ before between, ops = before ++ .arrive (.inl a) :: between ∧ .drain ∉ between ∧
    (itemsOf (arrivals before)).length = n

/-- Item number `n` was taken out by the first drain after its arrival, together with
the newest side value before that drain. -/
def Taken (ops : List (Op α β)) (n : ℕ) (p : α × Option β) : Prop :=
  ∃ before between after, ops = before ++ .arrive (.inl p.1) :: between ++ .drain :: after ∧
    .drain ∉ between ∧ (itemsOf (arrivals before)).length = n ∧
    p.2 = latest none (sidesOf (arrivals (before ++ between)))

theorem waits_arrive (ops : List (Op α β)) (a : α) :
    Waits (ops ++ [.arrive (.inl a)]) (itemsOf (arrivals ops)).length a :=
  ⟨ops, [], rfl, by simp, rfl⟩

theorem Waits.snoc (h : Waits ops n a) {op : Op α β} (hop : op ≠ .drain) :
    Waits (ops ++ [op]) n a := by
  obtain ⟨before, between, rfl, hnone, hn⟩ := h
  exact ⟨before, between ++ [op], by simp, by simp [hnone, hop.symm], hn⟩

theorem Waits.drain (h : Waits ops n a) :
    Taken (ops ++ [.drain]) n (a, latest none (sidesOf (arrivals ops))) := by
  obtain ⟨before, between, rfl, hnone, hn⟩ := h
  exact ⟨before, between, [], by simp, hnone, hn, by simp [arrivals_append]⟩

theorem Taken.snoc (h : Taken ops n p) (op : Op α β) : Taken (ops ++ [op]) n p := by
  obtain ⟨before, between, after, rfl, hnone, hn, hp⟩ := h
  exact ⟨before, between, after ++ [op], by simp, hnone, hn, hp⟩

structure Traced (ops : List (Op α β)) (m : Mailbox α β) : Prop where
  newest : latest m.cached m.sides = latest none (sidesOf (arrivals ops))
  items : ∀ j a, m.items[j]? = some a → Waits ops (m.delivered.length + j) a
  delivered : ∀ i p, m.delivered[i]? = some p → Taken ops i p

theorem Traced.step {m : Mailbox α β} (h : Traced ops m)
    (hcount : m.delivered.length + m.items.length = (itemsOf (arrivals ops)).length)
    {op : Op α β} (hop : op ≠ .forget) : Traced (ops ++ [op]) (step m op) := by
  obtain ⟨hnew, hitems, hdelivered⟩ := h
  cases op with
  | arrive x =>
    cases x with
    | inl a =>
      refine ⟨by simpa [Mailbox.step, arrivals_append] using hnew, ?_, ?_⟩
      · intro j b hj
        rcases Nat.lt_or_ge j m.items.length with hlt | hge
        · rw [Mailbox.step, List.getElem?_append_left hlt] at hj
          exact (hitems j b hj).snoc (by simp)
        · rw [Mailbox.step, List.getElem?_append_right hge, List.getElem?_singleton] at hj
          split_ifs at hj with hj0
          obtain rfl := Option.some.inj hj
          have hlen : m.delivered.length + j = (itemsOf (arrivals ops)).length := by omega
          exact hlen ▸ waits_arrive ops a
      · intro i p hp
        exact (hdelivered i p hp).snoc _
    | inr b =>
      refine ⟨?_, ?_, ?_⟩
      · simp [Mailbox.step, arrivals_append, latest_append]
      · intro j a hj
        exact (hitems j a hj).snoc (by simp)
      · intro i p hp
        exact (hdelivered i p hp).snoc _
  | drain =>
    refine ⟨by simpa [Mailbox.step, arrivals_append] using hnew, by simp [Mailbox.step], ?_⟩
    intro i p hp
    rcases Nat.lt_or_ge i m.delivered.length with hlt | hge
    · rw [Mailbox.step, List.getElem?_append_left hlt] at hp
      exact (hdelivered i p hp).snoc _
    · rw [Mailbox.step, List.getElem?_append_right hge, List.getElem?_map] at hp
      obtain ⟨a, ha, rfl⟩ := Option.map_eq_some_iff.mp hp
      have htaken := (hitems _ a ha).drain
      rw [Nat.add_sub_cancel' hge] at htaken
      rwa [hnew]
  | forget => exact absurd rfl hop

theorem run_traced (ops : List (Op α β)) (hops : .forget ∉ ops) :
    Traced ops (run step (drained none []) ops) := by
  induction ops using List.reverseRecOn with
  | nil => exact ⟨rfl, by simp [drained], by simp [drained]⟩
  | append_singleton ops op ih =>
    simp only [List.mem_append, List.mem_singleton, not_or] at hops
    have hcount := congrArg List.length (run_conserves (drained none []) ops)
    rw [Runs.run_append]
    exact (ih hops.1).step (by simpa [drained] using hcount) (Ne.symm hops.2)

section Image
variable {γ : Type*} {f : γ → Option (Op α β)}

theorem Taken.preimage {acts : List γ} (h : Taken (acts.filterMap f) n p) :
    ∃ before x between y after, acts = before ++ x :: between ++ y :: after ∧
      f x = some (.arrive (.inl p.1)) ∧ f y = some .drain ∧
      (∀ z ∈ between, f z ≠ some .drain) ∧
      (itemsOf (arrivals (before.filterMap f))).length = n ∧
      p.2 = latest none (sidesOf (arrivals ((before ++ between).filterMap f))) := by
  obtain ⟨before, between, after, hops, hnone, hn, hp⟩ := h
  obtain ⟨l₁, l₂, rfl, h₁, h₂⟩ := List.filterMap_eq_append_iff.mp hops
  obtain ⟨b₁, b₂, rfl, hb₁, hb₂⟩ := List.filterMap_eq_append_iff.mp h₁
  obtain ⟨c₁, x, c₂, rfl, hc₁, hx, hc₂⟩ := List.filterMap_eq_cons_iff.mp hb₂
  obtain ⟨d₁, y, d₂, rfl, hd₁, hy, -⟩ := List.filterMap_eq_cons_iff.mp h₂
  have hskip {l : List γ} (hl : ∀ z ∈ l, f z = none) : l.filterMap f = [] :=
    List.filterMap_eq_nil_iff.mpr hl
  refine ⟨b₁ ++ c₁, x, c₂ ++ d₁, y, d₂, by simp, hx, hy, ?_, ?_, ?_⟩
  · intro z hz hdrain
    rcases List.mem_append.mp hz with hz | hz
    · exact hnone (hc₂ ▸ List.mem_filterMap.mpr ⟨z, hz, hdrain⟩)
    · simp [hd₁ z hz] at hdrain
  · rw [List.filterMap_append, hskip hc₁, List.append_nil, hb₁, hn]
  · rw [hp, List.filterMap_append, List.filterMap_append, List.filterMap_append, hskip hc₁,
      hskip hd₁, List.append_nil, List.append_nil, hb₁, hc₂]

end Image

end Mailbox
