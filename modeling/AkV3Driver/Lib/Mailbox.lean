import AkV3Driver.Lib.Runs

/-!
# A drained mailbox with a cached side value

Items and side values arrive one at a time and wait in two queues. A drain empties
both: the newest side value replaces the cached one, and every waiting item is
delivered together with what is cached then. The cached value can be forgotten at
any time, without touching what waits. No item is lost or reordered; what an item is
paired with depends on the drains, and the results below say how far.
-/

structure Mailbox (α β : Type*) where
  items : List α
  sides : List β
  cached : Option β
  delivered : List (α × Option β)

namespace Mailbox
open Runs (run)

variable {α β : Type*}

inductive Op (α β : Type*)
  | arrive (x : α ⊕ β)
  | drain
  | forget

def itemsOf (xs : List (α ⊕ β)) : List α := xs.filterMap Sum.getLeft?

def sidesOf (xs : List (α ⊕ β)) : List β := xs.filterMap Sum.getRight?

def arrivals (ops : List (Op α β)) : List (α ⊕ β) :=
  ops.filterMap fun | .arrive x => some x | _ => none

def latest (c : Option β) (bs : List β) : Option β := bs.foldl (fun _ b => some b) c

def step (m : Mailbox α β) : Op α β → Mailbox α β
  | .arrive (.inl a) => { m with items := m.items ++ [a] }
  | .arrive (.inr b) => { m with sides := m.sides ++ [b] }
  | .drain =>
    let c := latest m.cached m.sides
    ⟨[], [], c, m.delivered ++ m.items.map (·, c)⟩
  | .forget => { m with cached := none }

def drained (c : Option β) (out : List (α × Option β)) : Mailbox α β := ⟨[], [], c, out⟩

@[simp] theorem latest_nil (c : Option β) : latest c [] = c := rfl
@[simp] theorem latest_cons (c : Option β) (b : β) (bs : List β) :
    latest c (b :: bs) = latest (some b) bs := rfl

theorem latest_append (c : Option β) (bs bs' : List β) :
    latest c (bs ++ bs') = latest (latest c bs) bs' := List.foldl_append

section Parts
variable (a : α) (b : β) (x : α ⊕ β) (xs ys : List (α ⊕ β)) (ops ops' : List (Op α β))

@[simp] theorem itemsOf_nil : itemsOf ([] : List (α ⊕ β)) = [] := rfl
@[simp] theorem itemsOf_inl : itemsOf (.inl a :: xs) = a :: itemsOf xs := rfl
@[simp] theorem itemsOf_inr : itemsOf (.inr b :: xs) = itemsOf xs := rfl
@[simp] theorem itemsOf_append : itemsOf (xs ++ ys) = itemsOf xs ++ itemsOf ys :=
  List.filterMap_append

@[simp] theorem sidesOf_nil : sidesOf ([] : List (α ⊕ β)) = [] := rfl
@[simp] theorem sidesOf_inl : sidesOf (.inl a :: xs) = sidesOf xs := rfl
@[simp] theorem sidesOf_inr : sidesOf (.inr b :: xs) = b :: sidesOf xs := rfl
@[simp] theorem sidesOf_append : sidesOf (xs ++ ys) = sidesOf xs ++ sidesOf ys :=
  List.filterMap_append

@[simp] theorem arrivals_nil : arrivals ([] : List (Op α β)) = [] := rfl
@[simp] theorem arrivals_arrive : arrivals (.arrive x :: ops) = x :: arrivals ops := rfl
@[simp] theorem arrivals_drain : arrivals (.drain :: ops) = arrivals ops := rfl
@[simp] theorem arrivals_forget : arrivals (.forget :: ops) = arrivals ops := rfl
theorem arrivals_append : arrivals (ops ++ ops') = arrivals ops ++ arrivals ops' :=
  List.filterMap_append

end Parts

theorem step_conserves (m : Mailbox α β) (op : Op α β) :
    (step m op).delivered.map Prod.fst ++ (step m op).items =
      m.delivered.map Prod.fst ++ m.items ++ itemsOf (arrivals [op]) := by
  cases op with
  | arrive x => cases x <;> simp [step]
  | drain => simp [step, Function.comp_def]
  | forget => simp [step]

/-- No item is lost, duplicated or reordered, whatever the drains and resets. -/
theorem run_conserves (m : Mailbox α β) (ops : List (Op α β)) :
    (run step m ops).delivered.map Prod.fst ++ (run step m ops).items =
      m.delivered.map Prod.fst ++ m.items ++ itemsOf (arrivals ops) := by
  induction ops generalizing m with
  | nil => simp
  | cons op ops ih =>
    have hs := step_conserves m op
    have hops := arrivals_append [op] ops
    rw [List.singleton_append] at hops
    simp [ih, hs, hops]

theorem run_arrivals (m : Mailbox α β) (xs : List (α ⊕ β)) :
    run step m (xs.map .arrive) =
      { m with items := m.items ++ itemsOf xs, sides := m.sides ++ sidesOf xs } := by
  induction xs generalizing m with
  | nil => simp
  | cons x xs ih => cases x <;> simp [step, ih]

section Batches

def batchOps (xs : List (α ⊕ β)) : List (Op α β) := xs.map .arrive ++ [.drain]

theorem arrivals_arrive_map (xs : List (α ⊕ β)) : arrivals (xs.map .arrive) = xs := by
  induction xs with
  | nil => rfl
  | cons x xs ih => simp [ih]

theorem arrivals_batches (bs : List (List (α ⊕ β))) :
    arrivals (bs.flatMap batchOps) = bs.flatten := by
  induction bs with
  | nil => rfl
  | cons b bs ih => simp [batchOps, arrivals_append, arrivals_arrive_map, ih]

theorem run_batch (c : Option β) (out : List (α × Option β)) (xs : List (α ⊕ β)) :
    run step (drained c out) (batchOps xs) =
      drained (latest c (sidesOf xs)) (out ++ (itemsOf xs).map (·, latest c (sidesOf xs))) := by
  simp only [batchOps, Runs.run_append, run_arrivals]
  simp [step, drained]

theorem run_batches_cached (bs : List (List (α ⊕ β))) (c : Option β) (out : List (α × Option β)) :
    ∃ out', run step (drained c out) (bs.flatMap batchOps) =
      drained (latest c (sidesOf bs.flatten)) out' := by
  induction bs generalizing c out with
  | nil => exact ⟨out, rfl⟩
  | cons b bs ih =>
    obtain ⟨out', h⟩ := ih (latest c (sidesOf b)) (out ++ (itemsOf b).map (·, latest c (sidesOf b)))
    refine ⟨out', ?_⟩
    simp [Runs.run_append, run_batch, h, latest_append]

theorem run_batches_items (bs : List (List (α ⊕ β))) (c : Option β) :
    (run step (drained c []) (bs.flatMap batchOps)).delivered.map Prod.fst =
      itemsOf bs.flatten := by
  obtain ⟨out, h⟩ := run_batches_cached bs c []
  have hitems := run_conserves (drained c []) (bs.flatMap batchOps)
  rw [h] at hitems ⊢
  simpa [drained, arrivals_batches] using hitems

/-- A batch is delivered with the newest side value that arrived before its drain. -/
theorem run_batches_snoc (bs : List (List (α ⊕ β))) (b : List (α ⊕ β)) (c : Option β) :
    (run step (drained c []) ((bs ++ [b]).flatMap batchOps)).delivered =
      (run step (drained c []) (bs.flatMap batchOps)).delivered ++
        (itemsOf b).map (·, latest c (sidesOf (bs ++ [b]).flatten)) := by
  obtain ⟨out', h⟩ := run_batches_cached bs c []
  simp only [List.flatMap_append, Runs.run_append, h, List.flatMap_singleton, run_batch]
  simp [drained, latest_append]

/-- Each arrival handled at once: an item is paired with the newest side value before it. -/
def inOrder : Option β → List (α ⊕ β) → List (α × Option β)
  | _, [] => []
  | c, .inl a :: xs => (a, c) :: inOrder c xs
  | _, .inr b :: xs => inOrder (some b) xs

theorem inOrder_append (c : Option β) (xs ys : List (α ⊕ β)) :
    inOrder c (xs ++ ys) = inOrder c xs ++ inOrder (latest c (sidesOf xs)) ys := by
  induction xs generalizing c with
  | nil => rfl
  | cons x xs ih => cases x <;> simp [inOrder, ih]

theorem inOrder_items (c : Option β) (xs : List (α ⊕ β)) :
    (inOrder c xs).map Prod.fst = itemsOf xs := by
  induction xs generalizing c with
  | nil => rfl
  | cons x xs ih => cases x <;> simp [inOrder, ih]

def SidesFirst (xs : List (α ⊕ β)) : Prop := xs.Pairwise fun x y => x.isLeft → y.isLeft

theorem inOrder_of_sidesFirst {xs : List (α ⊕ β)} (h : SidesFirst xs) (c : Option β) :
    inOrder c xs = (itemsOf xs).map (·, latest c (sidesOf xs)) := by
  induction xs generalizing c with
  | nil => rfl
  | cons x xs ih =>
    obtain ⟨hx, hxs⟩ := List.pairwise_cons.mp h
    cases x with
    | inl a =>
      have hnone : sidesOf xs = [] := by
        refine List.filterMap_eq_nil_iff.mpr fun y hy => ?_
        cases y with
        | inl _ => rfl
        | inr b => exact absurd (hx _ hy rfl) (by simp)
      simp [inOrder, ih hxs c, hnone]
    | inr b => simpa [inOrder] using ih hxs (some b)

/-- Batches in which the side values come first deliver what handling each arrival
at once would. -/
theorem run_batches_of_sidesFirst (bs : List (List (α ⊕ β))) (h : ∀ b ∈ bs, SidesFirst b)
    (c : Option β) (out : List (α × Option β)) :
    (run step (drained c out) (bs.flatMap batchOps)).delivered = out ++ inOrder c bs.flatten := by
  induction bs generalizing c out with
  | nil => simp [drained, inOrder]
  | cons b bs ih =>
    have ho := inOrder_of_sidesFirst (h b (by simp)) c
    have hr := ih fun b' hb' => h b' (by simp [hb'])
    simp [Runs.run_append, run_batch, hr, inOrder_append, ho]

end Batches

theorem latest_eq_some {c : Option β} {bs : List β} {b : β} (h : latest c bs = some b) :
    c = some b ∨ b ∈ bs := by
  induction bs generalizing c with
  | nil => exact .inl h
  | cons b' bs ih =>
    rcases ih h with hb | hb
    · exact .inr (by simp [Option.some.inj hb])
    · exact .inr (List.mem_cons_of_mem b' hb)

theorem latest_eq_none {c : Option β} {bs : List β} (h : latest c bs = none) :
    c = none ∧ bs = [] := by
  induction bs generalizing c with
  | nil => exact ⟨h, rfl⟩
  | cons b bs ih => exact absurd (ih h).1 (by simp)

/-- Side values have no other source than the cache, the queue and the arrivals. -/
theorem run_sources (ops : List (Op α β)) (m : Mailbox α β) :
    ∃ out, (run step m ops).delivered = m.delivered ++ out ∧
      ∀ p ∈ out, ∀ b, p.2 = some b →
        m.cached = some b ∨ b ∈ m.sides ++ sidesOf (arrivals ops) := by
  induction ops generalizing m with
  | nil => exact ⟨[], by simp, by simp⟩
  | cons op ops ih =>
    obtain ⟨out, hout, hsrc⟩ := ih (step m op)
    cases op with
    | arrive x =>
      cases x with
      | inl a => exact ⟨out, hout, hsrc⟩
      | inr b => exact ⟨out, hout, by simpa [step] using hsrc⟩
    | drain =>
      refine ⟨m.items.map (·, latest m.cached m.sides) ++ out, by simpa [step] using hout, ?_⟩
      intro p hp b hb
      have hlatest (h : latest m.cached m.sides = some b) :
          m.cached = some b ∨ b ∈ m.sides ++ sidesOf (arrivals ops) :=
        (latest_eq_some h).imp_right fun hmem => List.mem_append_left _ hmem
      rcases List.mem_append.mp hp with hnow | hlater
      · obtain ⟨a, -, rfl⟩ := List.mem_map.mp hnow
        exact hlatest hb
      · rcases hsrc p hlater b hb with hc | hmem
        · exact hlatest hc
        · exact .inr (List.mem_append_right _ hmem)
    | forget =>
      refine ⟨out, hout, fun p hp b hb => ?_⟩
      rcases hsrc p hp b hb with hc | hmem
      · simp [step] at hc
      · exact .inr hmem

/-- With no side value cached or waiting, items are delivered bare until the next
side value arrives. -/
theorem run_quiet (ops : List (Op α β)) (m : Mailbox α β) (hs : m.sides = [])
    (hc : m.cached = none) (hops : sidesOf (arrivals ops) = []) :
    ∃ as, as ++ (run step m ops).items = m.items ++ itemsOf (arrivals ops) ∧
      (run step m ops).delivered = m.delivered ++ as.map (·, none) := by
  induction ops generalizing m with
  | nil => exact ⟨[], by simp, by simp⟩
  | cons op ops ih =>
    cases op with
    | arrive x =>
      cases x with
      | inl a =>
        obtain ⟨as, hi, hd⟩ := ih (step m (.arrive (.inl a))) hs hc (by simpa using hops)
        exact ⟨as, by simpa [step] using hi, hd⟩
      | inr b => simp at hops
    | drain =>
      obtain ⟨as, hi, hd⟩ := ih (step m .drain) rfl (by simp [step, hs, hc]) (by simpa using hops)
      refine ⟨m.items ++ as, by simpa [step] using hi, ?_⟩
      simpa [step, hs, hc] using hd
    | forget =>
      obtain ⟨as, hi, hd⟩ := ih (step m .forget) hs rfl (by simpa using hops)
      exact ⟨as, by simpa [step] using hi, hd⟩

end Mailbox
