import RumpuserXen.Requests

/-
  The join protocol

  `exit_thread` and `join_thread` meet through two flags of the exiting
  thread, `THREAD_MUSTJOIN` (set for a joinable thread before it runs) and
  `THREAD_JOINED` (set by the thread itself in the gate of `exit_thread`), and
  through the wait queue `joinwq` of (waiter, wanted) pairs. The log records the
  protocol's milestones: `created`, `joinCall`, `joinReturn`, `setJoined`,
  `clearMustjoin` and `toExited`.

  What is proved:
  1. `JoinStep`: what one stretch of the current thread's code may do to the
     join state: the flags, the wait queue, the exited list and the
     milestones. It holds of the stretches outside the protocol
     (`JoinQuiet`, `Footprint.joinQuiet`), and of the five that
     take part in it: `create_thread`, the creation of the pump, the gate of
     `exit_thread`, `join_thread` and its loop.
  2. `JoinInv`: the protocol's invariant, preserved by every step
     (`JoinInv.preserved`), hence of every reachable state. With one joiner
     `y` of a joinable thread `x`, it says that `x` reaches the exited list only
     after `y` has cleared `THREAD_MUSTJOIN`, and that when `x` has set
     `THREAD_JOINED` a `y` parked in the loop is runnable.
  3. `join_protocol`: `join_thread(x)` returns only after `x` set
     `THREAD_JOINED`; with one joiner `y`, `x` is pushed on the exited list only
     after `y` cleared its `THREAD_MUSTJOIN`, no wait entry names `x` once it
     is there, and `x` in the gate and `y` in the loop are never parked and
     both not runnable.
  4. `join_waiters_live`: with any number of joiners, an entry of `joinwq`
     is there exactly while its waiter stands in the loop of `join_thread`,
     on the run list, so no entry outlives the stack frame it lives in
     (`freed_pc_of_reachable`: a reclaimed thread never leaves the last
     loop of `exit_thread`).
-/

namespace RumpuserXen

/-- The steps that run the current thread's code: all but a pass of the
selection loop, the clock and an interrupt. -/
def Act.isCode : Act → Bool
  | .pass | .tick _ | .irq _ => false
  | _ => true

/-- The milestones of the join protocol that follow from a step's effect on the
join state: all but the call of `join_thread`, which comes before its test. -/
def Event.isJoin : Event → Bool
  | .created .. | .joinReturn .. | .setJoined _ | .clearMustjoin .. | .toExited _ => true
  | _ => false

/-- The kinds of the milestones. -/
def Event.Kind.isJoin : Event.Kind → Bool
  | .created _ | .joinReturn | .setJoined | .clearMustjoin | .toExited => true
  | _ => false

theorem Event.isJoin_eq_kind (e : Event) : e.isJoin = e.kind.isJoin := by
  cases e <;> rfl

/-- The points where a thread waits in the protocol: the gate of
`exit_thread` and the loop of `join_thread`. -/
def Cont.isJoin : Cont → Bool
  | .exitGate | .joinLoop _ => true
  | _ => false

/-- The entry points that create a thread or enter the protocol. -/
def Call.isJoin : Call → Bool
  | .createThread .. | .exitThread | .joinThread _ => true
  | _ => false

/-- Every occurrence of `b` in `l` has an `a` before it. -/
def Precedes (a b : Event) (l : List Event) : Prop :=
  ∀ i : Nat, l[i]? = some b → ∃ j < i, l[j]? = some a

/-- No thread but `y` calls `join_thread(x)`. -/
def Single (x y : Tid) (l : List Event) : Prop := ∀ w, .joinCall w x ∈ l → w = y

section
variable {a b e : Event} {l l' : List Event}

theorem mem_of_take (ht : l'.take l.length = l) (he : e ∈ l) : e ∈ l' := by
  rw [← ht] at he; exact List.mem_of_mem_take he

theorem take_append_of_take (ht : l'.take l.length = l) (m : List Event) : (l' ++ m).take l.length = l := by
  have h := congrArg List.length ht
  rw [List.length_take] at h
  rw [List.take_append_of_le_length (by omega), ht]

theorem Precedes.of_not_mem (hb : b ∉ l) : Precedes a b l :=
  fun _ hi => absurd (List.getElem?_mem hi) hb

/-- A log that grows keeps an order, if a new `b` comes after an old `a`. -/
theorem Precedes.extend (hp : Precedes a b l) (ht : l'.take l.length = l) (hb : b ∈ l' → b ∈ l ∨ a ∈ l) :
    Precedes a b l' := by
  intro i hi
  have hbl' := List.getElem?_mem hi
  rw [← List.take_append_drop l.length l', ht] at hi ⊢
  by_cases hil : i < l.length
  · rw [List.getElem?_append_left hil] at hi
    obtain ⟨j, hj, hja⟩ := hp i hi
    exact ⟨j, hj, by rwa [List.getElem?_append_left (by omega)]⟩
  · rcases hb hbl' with hbl | hal
    · obtain ⟨k, hk, rfl⟩ := List.getElem_of_mem hbl
      obtain ⟨j, hj, hja⟩ := hp k (List.getElem?_eq_getElem hk)
      exact ⟨j, by omega, by rwa [List.getElem?_append_left (by omega)]⟩
    · obtain ⟨j, hj, rfl⟩ := List.getElem_of_mem hal
      exact ⟨j, by omega, by rw [List.getElem?_append_left hj, List.getElem?_eq_getElem hj]⟩

theorem Touch.joined {a b : Thread} (ht : Touch a b) : hasFlag b.flags threadJoined = hasFlag a.flags threadJoined := by
  cases ht <;> simp

theorem Single.of_take {x y : Tid} (hs : Single x y l') (ht : l'.take l.length = l) : Single x y l :=
  fun w hw => hs w (mem_of_take ht hw)

end

namespace Sys

/-- `THREAD_JOINED` of thread `t`. -/
def joined (s : Sys) (t : Tid) : Bool := hasFlag (s.th t).flags threadJoined

/-- `THREAD_MUSTJOIN` of thread `t`. -/
def mustjoin (s : Sys) (t : Tid) : Bool := hasFlag (s.th t).flags threadMustjoin

section
variable {s s' : Sys}

/-! ## Stretches outside the protocol -/

/-- A stretch of code that leaves the join state alone: the wait queue, the
exited list, the two flags of every thread and the milestones, and that does
not leave the current thread in the protocol. -/
structure JoinQuiet (s s' : Sys) : Prop where
  joinwq : s'.joinwq = s.joinwq
  exited : s'.exited = s.exited
  flags : ∀ t, s'.joined t = s.joined t ∧ s'.mustjoin t = s.mustjoin t
  log : s'.log.take s.log.length = s.log
  joinLog : s'.log.filter Event.isJoin = s.log.filter Event.isJoin
  cur : (s'.pc s.cur).cont.isJoin = false

theorem joinQuiet_iff : JoinQuiet s s' ↔ s'.joinwq = s.joinwq ∧ s'.exited = s.exited ∧
    (∀ t, s'.joined t = s.joined t ∧ s'.mustjoin t = s.mustjoin t) ∧
    s'.log.take s.log.length = s.log ∧ s'.log.filter Event.isJoin = s.log.filter Event.isJoin ∧
    (s'.pc s.cur).cont.isJoin = false :=
  ⟨fun ⟨a, b, d, e, f, g⟩ => ⟨a, b, d, e, f, g⟩, fun ⟨a, b, d, e, f, g⟩ => ⟨a, b, d, e, f, g⟩⟩

/-- Code that writes neither the wait queue, the lists nor the flags, logs no
milestone and does not end in the protocol leaves the join state alone. -/
theorem Footprint.joinQuiet {w : Writes} (hf : Footprint w s s') (hj : w.joinwq = false) (hl : w.lists = false)
    (hg : w.joinFlags = false) (he : ∀ k ∈ w.emits, k.isJoin = false)
    (hd : ∀ p ∈ w.ends, p.cont.isJoin = false) : JoinQuiet s s' :=
  ⟨hf.joinwq hj, hf.exited hl, hf.joinFlags hg, hf.log_take,
    hf.filter_log fun e hp hm => absurd (Event.isJoin_eq_kind e ▸ hp) (by rw [he _ hm]; decide), hd _ hf.ends⟩

theorem joinQuiet_call {c : Call} (hc : c.isJoin = false) (hpc : s.pc s.cur = .run .user)
    (h : s.call c = some s') : JoinQuiet s s' := by
  refine (footprint_call hpc h).joinQuiet ?_ ?_ ?_ ?_ ?_ <;> cases c <;>
    simp_all [Call.isJoin, Event.Kind.isJoin, Cont.isJoin]

theorem joinQuiet_cont {k : Cont} (hk : k.isJoin = false) (hs : k.isSpawn = false)
    (hpc : s.pc s.cur = .run k) (h : s.cont k = some s') : JoinQuiet s s' := by
  refine (footprint_cont hpc h).joinQuiet ?_ ?_ ?_ ?_ ?_ <;> cases k <;>
    simp_all [Cont.isJoin, Cont.isSpawn, Event.Kind.isJoin]

/-! ## What one stretch of code does to the join state -/

/-- What a stretch of the current thread's code may do to the join state. -/
structure JoinStep (s s' : Sys) : Prop where
  log : s'.log.take s.log.length = s.log
  /-- Only the current thread sets `THREAD_JOINED`, its own, and says so. -/
  joined : s'.joined s.cur = true → s.joined s.cur = true ∨ .setJoined s.cur ∈ s'.log
  /-- It parks in the gate of `exit_thread` only with `THREAD_JOINED` set. -/
  gate : (s'.pc s.cur).cont = .exitGate → s'.joined s.cur = true
  /-- `join_thread(x)` returns only if `x` had set `THREAD_JOINED`. -/
  joinReturn : ∀ w x, .joinReturn w x ∈ s'.log → .joinReturn w x ∈ s.log ∨ s.joined x = true
  /-- A thread goes to the exited list only by itself, with `THREAD_MUSTJOIN` clear. -/
  toExited : ∀ t, .toExited t ∈ s'.log → .toExited t ∈ s.log ∨ t = s.cur ∧ s.mustjoin s.cur = false
  exited : ∀ t ∈ s'.exited, t ∈ s.exited ∨ t = s.cur ∧ s.mustjoin s.cur = false
  /-- Only a caller of `join_thread(x)` clears the `THREAD_MUSTJOIN` of `x`. -/
  clear : ∀ w x, .clearMustjoin w x ∈ s'.log → .clearMustjoin w x ∈ s.log ∨ .joinCall w x ∈ s'.log
  /-- ... and says so, and leaves the loop. -/
  release : ∀ x, s'.mustjoin x = false → s.mustjoin x = true →
    x = s.nextTid ∨ .clearMustjoin s.cur x ∈ s'.log ∧ (s'.pc s.cur).cont ≠ .joinLoop x
  /-- `THREAD_MUSTJOIN` is set only on a thread being created. -/
  mustjoin : ∀ x, s'.mustjoin x = true → s.mustjoin x = true ∨ x = s.nextTid
  created : ∀ t k j, .created t k j ∈ s'.log → .created t k j ∈ s.log ∨
    t = s.nextTid ∧ s'.nextTid = s.nextTid + 1 ∧ (j = true → s'.mustjoin t = true)
  /-- The current thread adds and removes only its own wait entries. -/
  waitq : ∀ w x, w ≠ s.cur → ((w, x) ∈ s'.joinwq ↔ (w, x) ∈ s.joinwq)
  waitq_cur : ∀ x, (s.cur, x) ∈ s'.joinwq ↔ (s'.pc s.cur).cont = .joinLoop x
  nodup : s'.joinwq.Nodup
  /-- It enters the loop of `join_thread(x)` only by calling it, with the assertion holding. -/
  loop : ∀ x, (s'.pc s.cur).cont = .joinLoop x →
    (s.pc s.cur).cont = .joinLoop x ∨ .joinCall s.cur x ∈ s'.log ∧ s.mustjoin x = true
  /-- It parks in the loop of `join_thread(x)` only while `x` has not set `THREAD_JOINED`. -/
  park : ∀ x, s'.pc s.cur = .sched (.joinLoop x) → s'.joined x = false
  /-- Setting `THREAD_JOINED`, it wakes the first thread waiting for it. -/
  wake : s'.joined s.cur = true → s.joined s.cur = false →
    ∀ jw ∈ s.joinwq.find? (·.2 == s.cur), jw.1 ≠ s.cur → (s'.th jw.1).isRunnable = true

theorem joinStep_iff : JoinStep s s' ↔ s'.log.take s.log.length = s.log ∧
    (s'.joined s.cur = true → s.joined s.cur = true ∨ .setJoined s.cur ∈ s'.log) ∧
    ((s'.pc s.cur).cont = .exitGate → s'.joined s.cur = true) ∧
    (∀ w x, .joinReturn w x ∈ s'.log → .joinReturn w x ∈ s.log ∨ s.joined x = true) ∧
    (∀ t, .toExited t ∈ s'.log → .toExited t ∈ s.log ∨ t = s.cur ∧ s.mustjoin s.cur = false) ∧
    (∀ t ∈ s'.exited, t ∈ s.exited ∨ t = s.cur ∧ s.mustjoin s.cur = false) ∧
    (∀ w x, .clearMustjoin w x ∈ s'.log → .clearMustjoin w x ∈ s.log ∨ .joinCall w x ∈ s'.log) ∧
    (∀ x, s'.mustjoin x = false → s.mustjoin x = true →
      x = s.nextTid ∨ .clearMustjoin s.cur x ∈ s'.log ∧ (s'.pc s.cur).cont ≠ .joinLoop x) ∧
    (∀ x, s'.mustjoin x = true → s.mustjoin x = true ∨ x = s.nextTid) ∧
    (∀ t k j, .created t k j ∈ s'.log → .created t k j ∈ s.log ∨
      t = s.nextTid ∧ s'.nextTid = s.nextTid + 1 ∧ (j = true → s'.mustjoin t = true)) ∧
    (∀ w x, w ≠ s.cur → ((w, x) ∈ s'.joinwq ↔ (w, x) ∈ s.joinwq)) ∧
    (∀ x, (s.cur, x) ∈ s'.joinwq ↔ (s'.pc s.cur).cont = .joinLoop x) ∧
    s'.joinwq.Nodup ∧
    (∀ x, (s'.pc s.cur).cont = .joinLoop x →
      (s.pc s.cur).cont = .joinLoop x ∨ .joinCall s.cur x ∈ s'.log ∧ s.mustjoin x = true) ∧
    (∀ x, s'.pc s.cur = .sched (.joinLoop x) → s'.joined x = false) ∧
    (s'.joined s.cur = true → s.joined s.cur = false →
      ∀ jw ∈ s.joinwq.find? (·.2 == s.cur), jw.1 ≠ s.cur → (s'.th jw.1).isRunnable = true) :=
  ⟨fun ⟨a, b, c, d, e, f, g, h, i, j, k, l, m, n, o, p⟩ => ⟨a, b, c, d, e, f, g, h, i, j, k, l, m, n, o, p⟩,
   fun ⟨a, b, c, d, e, f, g, h, i, j, k, l, m, n, o, p⟩ => ⟨a, b, c, d, e, f, g, h, i, j, k, l, m, n, o, p⟩⟩

/-- A stretch outside the protocol, from a point outside it. -/
theorem JoinQuiet.joinStep (hq : JoinQuiet s s') (hk : (s.pc s.cur).cont.isJoin = false)
    (hw : ∀ x, (s.cur, x) ∈ s.joinwq ↔ (s.pc s.cur).cont = .joinLoop x) (hnd : s.joinwq.Nodup) :
    JoinStep s s' := by
  have hmem : ∀ e, e.isJoin = true → (e ∈ s'.log ↔ e ∈ s.log) := fun e he => by
    simpa [List.mem_filter, he] using congrArg (e ∈ ·) hq.joinLog
  have hj := fun t => (hq.flags t).1
  have hm := fun t => (hq.flags t).2
  have hc := hq.cur
  refine ⟨hq.log, fun h => .inl (hj _ ▸ h), fun h => ?_, fun w x h => .inl ((hmem _ (by rfl)).1 h),
    fun t h => .inl ((hmem _ (by rfl)).1 h), fun t h => .inl (hq.exited ▸ h),
    fun w x h => .inl ((hmem _ (by rfl)).1 h), fun x h h' => ?_, fun x h => .inl (hm x ▸ h),
    fun t k j h => .inl ((hmem _ (by rfl)).1 h), fun w x _ => by rw [hq.joinwq], fun x => ?_,
    hq.joinwq ▸ hnd, fun x h => ?_, fun x h => ?_, fun h h' => ?_⟩
  · simp [h, Cont.isJoin] at hc
  · rw [hm, h'] at h; cases h
  · rw [hq.joinwq, hw]
    constructor <;> intro h <;> simp [h, Cont.isJoin] at hk hc
  · simp [h, Cont.isJoin] at hc
  · simp [h, Cont.isJoin] at hc
  · rw [hj, h'] at h; cases h

/-! ## The stretches of the protocol -/

/-- The gate of `exit_thread` while `THREAD_MUSTJOIN` is set: `THREAD_JOINED`,
the wake of the first waiter, and the park in the gate. -/
theorem exitGate_wait (hm : s.mustjoin s.cur = true) :
    s.exitGate.log = s.log ++ [.setJoined s.cur] ∧ s.exitGate.joinwq = s.joinwq ∧
    s.exitGate.exited = s.exited ∧ s.exitGate.pc s.cur = .sched .exitGate ∧
    (∀ x, s.exitGate.joined x = (decide (x = s.cur) || s.joined x)) ∧
    (∀ x, s.exitGate.mustjoin x = s.mustjoin x) ∧
    ∀ jw ∈ s.joinwq.find? (·.2 == s.cur), jw.1 ≠ s.cur → (s.exitGate.th jw.1).isRunnable = true := by
  simp only [mustjoin, hasFlag_threadMustjoin] at hm
  simp only [exitGate, hasFlag_threadMustjoin, hm, if_true]
  refine ⟨rfl, rfl, rfl, by simp [pc], fun x => ?_, fun x => ?_, fun jw hjw hne => ?_⟩
  · by_cases hx : x = s.cur <;> simp [hx, joined, apply_ite Thread.flags, apply_ite (BitVec.getLsbD · 2)]
  · by_cases hx : x = s.cur <;> simp [hx, mustjoin, hm, apply_ite Thread.flags, apply_ite (BitVec.getLsbD · 1)]
  · simp [Option.mem_def.1 hjw, hne]

/-- The gate once `THREAD_MUSTJOIN` is clear: onto the exited list, and into
the last loop. -/
theorem exitGate_exit (hm : s.mustjoin s.cur = false) :
    s.exitGate.log = s.log ++ [.toExited s.cur] ∧ s.exitGate.joinwq = s.joinwq ∧
    s.exitGate.exited = s.cur :: s.exited ∧ s.exitGate.pc s.cur = .sched .exitDead ∧
    (∀ x, s.exitGate.joined x = s.joined x) ∧ (∀ x, s.exitGate.mustjoin x = s.mustjoin x) := by
  simp only [mustjoin, hasFlag_threadMustjoin] at hm
  simp only [exitGate, hasFlag_threadMustjoin, hm]
  refine ⟨rfl, rfl, rfl, by simp [pc], fun x => ?_, fun x => ?_⟩ <;>
    by_cases hx : x = s.cur <;> simp [hx, joined, mustjoin]

/-- **The gate of `exit_thread`**, entered from the caller's code or on
resumption in the gate. -/
theorem joinStep_exitGate (hk : (s.pc s.cur).cont = .user ∨ (s.pc s.cur).cont = .exitGate)
    (hw : ∀ x, (s.cur, x) ∈ s.joinwq ↔ (s.pc s.cur).cont = .joinLoop x) (hnd : s.joinwq.Nodup) :
    JoinStep s (s.irqSave s.cur).exitGate := by
  have hq : ∀ x, (s.cur, x) ∉ s.joinwq := fun x h => by rcases hk with hk | hk <;> simp [(hw x).1 h] at hk
  rw [joinStep_iff]
  cases hm : s.mustjoin s.cur
  · obtain ⟨hl, hjw, he, hpc, hj, hmj⟩ := exitGate_exit (s := s.irqSave s.cur) hm
    simp only [irqSave_log, irqSave_joinwq, irqSave_exited, irqSave_cur] at hl hjw he hpc
    simp only [joined, mustjoin, irqSave_th, irqSave_cur, hasFlag_threadJoined, hasFlag_threadMustjoin] at hj hmj hm
    simp +contextual [hl, hjw, he, hpc, hj, hmj, hq, hnd, hm, joined, mustjoin]
  · obtain ⟨hl, hjw, he, hpc, hj, hmj, hr⟩ := exitGate_wait (s := s.irqSave s.cur) hm
    simp only [irqSave_log, irqSave_joinwq, irqSave_exited, irqSave_cur] at hl hjw he hpc hr
    simp only [joined, mustjoin, irqSave_th, irqSave_cur, hasFlag_threadJoined, hasFlag_threadMustjoin] at hj hmj hm
    simp +contextual [hl, hjw, he, hpc, hj, hmj, hq, hnd, hm, hr, joined, mustjoin]

/-- The loop test while `x` has not set `THREAD_JOINED`: a wait entry, and the
park in the loop. -/
theorem joinTest_park {x : Tid} (hj : s.joined x = false) :
    (s.joinTest x).log = s.log ∧ (s.joinTest x).joinwq = s.joinwq ++ [(s.cur, x)] ∧
    (s.joinTest x).exited = s.exited ∧ (s.joinTest x).pc s.cur = .sched (.joinLoop x) ∧
    (∀ y, (s.joinTest x).joined y = s.joined y) ∧ (∀ y, (s.joinTest x).mustjoin y = s.mustjoin y) := by
  simp only [joined, hasFlag_threadJoined] at hj
  simp only [joinTest, hasFlag_threadJoined, hj, Bool.not_false, if_true]
  refine ⟨rfl, rfl, rfl, by simp [pc], fun y => ?_, fun y => ?_⟩ <;>
    by_cases hy : y = s.cur <;> simp [hy, joined, mustjoin]

/-- The loop test once `x` has set `THREAD_JOINED`: clear its `THREAD_MUSTJOIN`,
wake it and return. -/
theorem joinTest_done {x : Tid} (hj : s.joined x = true) :
    (s.joinTest x).log = s.log ++ [.clearMustjoin s.cur x, .joinReturn s.cur x] ∧
    (s.joinTest x).joinwq = s.joinwq ∧ (s.joinTest x).exited = s.exited ∧
    (s.joinTest x).pc s.cur = .run .user ∧
    (∀ y, (s.joinTest x).joined y = s.joined y) ∧
    (∀ y, (s.joinTest x).mustjoin y = (s.mustjoin y && !decide (y = x))) := by
  simp only [joined, hasFlag_threadJoined] at hj
  simp only [joinTest, hasFlag_threadJoined, hj, Bool.not_true, Bool.false_eq_true, if_false]
  refine ⟨by simp, rfl, rfl, by simp [pc], fun y => ?_, fun y => ?_⟩ <;>
    by_cases hy : y = x <;> simp [hy, joined, mustjoin]

/-- The state at the loop test of `join_thread(x)`, reached from `s` by the
current thread: by the call, or on resumption in the loop once its wait entry
is gone. -/
structure LoopEntry (s s1 : Sys) (x : Tid) : Prop where
  th : s1.th = s.th
  cur : s1.cur = s.cur
  exited : s1.exited = s.exited
  nextTid : s1.nextTid = s.nextTid
  log : s1.log.take s.log.length = s.log ∧ s1.log.filter Event.isJoin = s.log.filter Event.isJoin
  called : .joinCall s.cur x ∈ s1.log
  entry : (s.pc s.cur).cont = .joinLoop x ∨ s.mustjoin x = true
  waitq : ∀ w y, w ≠ s.cur → ((w, y) ∈ s1.joinwq ↔ (w, y) ∈ s.joinwq)
  waitq_cur : ∀ y, (s.cur, y) ∉ s1.joinwq
  nodup : s1.joinwq.Nodup

/-- **The loop test of `join_thread(x)`**: park in the loop while `x` has not set
`THREAD_JOINED`, or clear its `THREAD_MUSTJOIN`, wake it and return. -/
theorem joinStep_joinTest {s1 : Sys} {x : Tid} (he : LoopEntry s s1 x) : JoinStep s (s1.joinTest x) := by
  have hjs : ∀ y, s1.joined y = s.joined y := fun y => by simp only [joined, he.th]
  have hms : ∀ y, s1.mustjoin y = s.mustjoin y := fun y => by simp only [mustjoin, he.th]
  have hmem : ∀ e, e.isJoin = true → (e ∈ s1.log ↔ e ∈ s.log) := fun e h => by
    simpa [List.mem_filter, h] using congrArg (e ∈ ·) he.log.2
  cases hj : s.joined x
  · obtain ⟨hl, hjw, hex, hpc, hj', hm'⟩ := joinTest_park (s := s1) (x := x) (hjs x ▸ hj)
    rw [he.cur] at hjw hpc
    have hmem' : ∀ e, e.isJoin = true → (e ∈ (s1.joinTest x).log ↔ e ∈ s.log) := hl ▸ hmem
    exact {
      log := hl ▸ he.log.1
      joined := fun h => .inl (by rwa [hj', hjs] at h)
      gate := fun h => by simp [hpc] at h
      joinReturn := fun w y h => .inl ((hmem' _ (by rfl)).1 h)
      toExited := fun t h => .inl ((hmem' _ (by rfl)).1 h)
      exited := fun t h => .inl (by rwa [hex, he.exited] at h)
      clear := fun w y h => .inl ((hmem' _ (by rfl)).1 h)
      release := fun y h h' => by rw [hm', hms, h'] at h; cases h
      mustjoin := fun y h => .inl (by rwa [hm', hms] at h)
      created := fun t k j h => .inl ((hmem' _ (by rfl)).1 h)
      waitq := fun w y hne => by simp [hjw, he.waitq w y hne, hne]
      waitq_cur := fun y => by simp [hjw, he.waitq_cur, hpc, eq_comm]
      nodup := hjw ▸ he.nodup.append (List.nodup_singleton _) (by simpa using he.waitq_cur x)
      loop := fun y hy => by
        simp only [hpc, Pc.cont_sched, Cont.joinLoop.injEq] at hy
        subst hy
        exact he.entry.imp_right fun h => ⟨hl ▸ he.called, h⟩
      park := fun y hy => by
        rw [hpc, Pc.sched.injEq, Cont.joinLoop.injEq] at hy
        rw [← hy, hj', hjs, hj]
      wake := fun h h' => by rw [hj', hjs, h'] at h; cases h }
  · obtain ⟨hl, hjw, hex, hpc, hj', hm'⟩ := joinTest_done (s := s1) (x := x) (hjs x ▸ hj)
    rw [he.cur] at hl hpc
    have hmem' : ∀ e, e.isJoin = true → e ≠ .clearMustjoin s.cur x → e ≠ .joinReturn s.cur x →
        (e ∈ (s1.joinTest x).log ↔ e ∈ s.log) := fun e h h1 h2 => by simp [hl, h1, h2, hmem e h]
    exact {
      log := hl ▸ take_append_of_take he.log.1 _
      joined := fun h => .inl (by rwa [hj', hjs] at h)
      gate := fun h => by simp [hpc] at h
      joinReturn := fun w y h => by
        by_cases hr : Event.joinReturn w y = .joinReturn s.cur x
        · cases hr; exact .inr hj
        · exact .inl ((hmem' _ (by rfl) (by simp) hr).1 h)
      toExited := fun t h => .inl ((hmem' _ (by rfl) (by simp) (by simp)).1 h)
      exited := fun t h => .inl (by rwa [hex, he.exited] at h)
      clear := fun w y h => by
        by_cases hr : Event.clearMustjoin w y = .clearMustjoin s.cur x
        · cases hr; exact .inr (hl ▸ List.mem_append_left _ he.called)
        · exact .inl ((hmem' _ (by rfl) hr (by simp)).1 h)
      release := fun y h h' => by
        rw [hm', hms, h', Bool.true_and, Bool.not_eq_false', decide_eq_true_eq] at h
        subst h
        exact .inr ⟨by simp [hl], by simp [hpc]⟩
      mustjoin := fun y h => .inl (by rw [hm', hms, Bool.and_eq_true] at h; exact h.1)
      created := fun t k j h => .inl ((hmem' _ (by rfl) (by simp) (by simp)).1 h)
      waitq := fun w y hne => hjw ▸ he.waitq w y hne
      waitq_cur := fun y => by simp [hjw, he.waitq_cur, hpc]
      nodup := hjw ▸ he.nodup
      loop := fun y hy => by simp [hpc] at hy
      park := fun y hy => by simp [hpc] at hy
      wake := fun h h' => by rw [hj', hjs, h'] at h; cases h }

/-- **`join_thread(x)`**, called from the caller's code: the assertion, then the
loop test. -/
theorem joinStep_joinThread {x : Tid} (hpc : s.pc s.cur = .run .user)
    (hw : ∀ x, (s.cur, x) ∈ s.joinwq ↔ (s.pc s.cur).cont = .joinLoop x) (hnd : s.joinwq.Nodup) :
    JoinStep s (s.joinThread x) := by
  have hq : ∀ y, (s.cur, y) ∉ s.joinwq := fun y h => by simpa [hpc] using (hw y).1 h
  simp only [joinThread]
  split
  · next hm =>
    refine joinStep_joinTest ⟨rfl, rfl, rfl, rfl, ⟨by simp, by simp [Event.isJoin]⟩, by simp,
      .inr (by simpa [mustjoin] using hm), fun w y _ => Iff.rfl, hq, hnd⟩
  · refine JoinQuiet.joinStep ?_ (by simp [hpc, Cont.isJoin]) hw hnd
    rw [joinQuiet_iff]
    simp only [pc] at hpc
    simp [hpc, pc, joined, mustjoin, Cont.isJoin, Event.isJoin]

/-- **The loop of `join_thread(x)`**, on resumption: remove the wait entry, then
the loop test. -/
theorem joinStep_joinLoop {x : Tid} (hpc : s.pc s.cur = .run (.joinLoop x))
    (hw : ∀ x, (s.cur, x) ∈ s.joinwq ↔ (s.pc s.cur).cont = .joinLoop x) (hnd : s.joinwq.Nodup)
    (hc : .joinCall s.cur x ∈ s.log) :
    JoinStep s ((({ s with joinwq := s.joinwq.erase (s.cur, x) } : Sys).irqSave s.cur).joinTest x) := by
  refine joinStep_joinTest ⟨rfl, rfl, rfl, rfl, ⟨by simp, rfl⟩, hc, .inl (by simp [hpc]),
    fun w y hne => List.mem_erase_of_ne (by simp [hne]), fun y h => ?_, hnd.erase _⟩
  obtain ⟨hne, h⟩ := (hnd.mem_erase_iff).1 h
  rw [hw, hpc, Pc.cont_run, Cont.joinLoop.injEq] at h
  exact hne (by rw [h])

/-- **A creation**: one new thread, at `nextTid`, with `THREAD_MUSTJOIN` if it is
joinable, and its `created` milestone. -/
theorem joinStep_create {k : Cont} {j : Bool} (hlog : s'.log = s.log ++ [.created s.nextTid k j])
    (hq : s'.joinwq = s.joinwq) (he : s'.exited = s.exited) (hn : s'.nextTid = s.nextTid + 1)
    (hf : ∀ y, y ≠ s.nextTid → s'.joined y = s.joined y ∧ s'.mustjoin y = s.mustjoin y)
    (hmn : s'.mustjoin s.nextTid = j) (hpc' : (s'.pc s.cur).cont.isJoin = false) (hc : s.cur ≠ s.nextTid)
    (hk : (s.pc s.cur).cont.isJoin = false)
    (hw : ∀ x, (s.cur, x) ∈ s.joinwq ↔ (s.pc s.cur).cont = .joinLoop x) (hnd : s.joinwq.Nodup) :
    JoinStep s s' := by
  have hmem : ∀ e, e ∈ s'.log ↔ e ∈ s.log ∨ e = .created s.nextTid k j := by simp [hlog]
  exact {
    log := by simp [hlog]
    joined := fun h => .inl ((hf _ hc).1 ▸ h)
    gate := fun h => by simp [h, Cont.isJoin] at hpc'
    joinReturn := fun w x h => .inl (by simpa using (hmem _).1 h)
    toExited := fun t h => .inl (by simpa using (hmem _).1 h)
    exited := fun t h => .inl (he ▸ h)
    clear := fun w x h => .inl (by simpa using (hmem _).1 h)
    release := fun y h h' => by
      by_cases hy : y = s.nextTid
      · exact .inl hy
      · rw [(hf y hy).2, h'] at h; cases h
    mustjoin := fun y h => by
      by_cases hy : y = s.nextTid
      · exact .inr hy
      · exact .inl ((hf y hy).2 ▸ h)
    created := fun t k' j' h => by
      rcases (hmem _).1 h with h | h
      · exact .inl h
      · simp only [Event.created.injEq] at h
        obtain ⟨rfl, -, rfl⟩ := h
        exact .inr ⟨rfl, hn, fun h => hmn.trans h⟩
    waitq := fun w x _ => by rw [hq]
    waitq_cur := fun x => by
      rw [hq, hw]
      constructor <;> intro h <;> simp [h, Cont.isJoin] at hk hpc'
    nodup := hq ▸ hnd
    loop := fun x h => by simp [h, Cont.isJoin] at hpc'
    park := fun x h => by simp [h, Cont.isJoin] at hpc'
    wake := fun h h' => by rw [(hf _ hc).1, h'] at h; cases h }

theorem joinStep_createThread {stack : Option Nat} {cookie : Nat} {j : Bool} (hc : s.cur ≠ s.nextTid)
    (hpc : s.pc s.cur = .run .user)
    (hw : ∀ x, (s.cur, x) ∈ s.joinwq ↔ (s.pc s.cur).cont = .joinLoop x) (hnd : s.joinwq.Nodup)
    (h : s.call (.createThread stack cookie j) = some s') : JoinStep s s' := by
  simp only [call, Option.some.injEq] at h
  subst h
  refine joinStep_create (k := .user) (j := j) ?_ ?_ ?_ ?_
    (fun y hy => by cases j <;> simp [joined, mustjoin, Function.update_noteq, hy]) ?_ ?_ hc
    (by simp [hpc, Cont.isJoin]) hw hnd
  all_goals cases j <;> simp [pc, mustjoin, Cont.isJoin]

theorem joinStep_bioSpawn {a : BioArgs} (hc : s.cur ≠ s.nextTid) (hpc : s.pc s.cur = .run (.bioSpawn a))
    (hw : ∀ x, (s.cur, x) ∈ s.joinwq ↔ (s.pc s.cur).cont = .joinLoop x) (hnd : s.joinwq.Nodup) :
    JoinStep s (s.bioSpawn a) := by
  refine joinStep_create (k := .pumpStart) (j := false) ?_ ?_ ?_ ?_
    (fun y hy => by simp [bioSpawn, joined, mustjoin, Function.update_noteq, hy]) ?_ ?_ hc
    (by simp [hpc, Cont.isJoin]) hw hnd
  all_goals simp [bioSpawn, pc, mustjoin, Cont.isJoin]

/-- **Every step of the current thread's code** does to the join state what
`JoinStep` says. -/
theorem joinStep_of_step {a : Act} (hc : s.cur ≠ s.nextTid)
    (hw : ∀ x, (s.cur, x) ∈ s.joinwq ↔ (s.pc s.cur).cont = .joinLoop x) (hnd : s.joinwq.Nodup)
    (hl : ∀ x, (s.pc s.cur).cont = .joinLoop x → .joinCall s.cur x ∈ s.log) (ha : a.isCode = true)
    (h : step s a = some s') : JoinStep s s' := by
  cases a with
  | call c =>
    obtain ⟨-, hpc, h⟩ := step_call h
    cases hcj : c.isJoin
    · exact (joinQuiet_call hcj hpc h).joinStep (by simp [hpc, Cont.isJoin]) hw hnd
    · cases c <;> simp only [Call.isJoin, Bool.false_eq_true] at hcj
      case createThread => exact joinStep_createThread hc hpc hw hnd h
      case exitThread =>
        simp only [call, Option.some.injEq] at h
        exact h ▸ joinStep_exitGate (.inl (by simp [hpc])) hw hnd
      case joinThread x =>
        simp only [call, Option.ite_none_right_eq_some, Option.some.injEq] at h
        exact h.2 ▸ joinStep_joinThread hpc hw hnd
  | run =>
    obtain ⟨-, k, hpc, h⟩ := step_run h
    cases hkj : k.isJoin <;> cases hks : k.isSpawn
    · exact (joinQuiet_cont hkj hks hpc h).joinStep (by simp [hpc, hkj]) hw hnd
    · cases k <;> simp only [Cont.isSpawn, Bool.false_eq_true] at hks
      simp only [cont, Option.some.injEq] at h
      exact h ▸ joinStep_bioSpawn hc hpc hw hnd
    · cases k <;> simp only [Cont.isJoin, Bool.false_eq_true] at hkj <;>
        simp only [cont, Option.some.injEq] at h <;> subst h
      · exact joinStep_exitGate (.inr (by simp [hpc])) hw hnd
      · exact joinStep_joinLoop hpc hw hnd (hl _ (by simp [hpc]))
    · cases k <;> simp [Cont.isJoin, Cont.isSpawn] at hkj hks
  | initDone res =>
    obtain ⟨-, num, c, hpc, rfl⟩ := step_initDone h
    exact ((footprint_devopenDone hpc).joinQuiet rfl rfl rfl (by decide)
      (by simp [Writes.devopenDone, Cont.isJoin])).joinStep (by simp [hpc, Cont.isJoin]) hw hnd
  | poll cs =>
    obtain ⟨-, hpc, rfl⟩ := step_poll h
    exact ((footprint_poll hpc cs).joinQuiet rfl rfl rfl (by decide)
      (by simp [Writes.poll, Cont.isJoin])).joinStep (by simp [hpc, Cont.isJoin]) hw hnd
  | yield =>
    obtain ⟨-, k, hpc, hk, rfl⟩ := step_yield h
    have hkj : k.isJoin = false := by cases k <;> simp_all [Cont.yieldable, Cont.isJoin]
    refine JoinQuiet.joinStep ?_ (by simp [hpc, hkj]) hw hnd
    rw [joinQuiet_iff]
    simp [pc, joined, mustjoin, hkj]
  | pass | tick _ | irq _ => cases ha

/-! ## The other threads, and a pass -/

/-- A thread other than the current one that stands in the protocol, before or
after a stretch of the current thread's code, stands where it stood. -/
theorem SegFrame.join_other (hf : SegFrame s s') (hu : s.Unborn) {u : Tid} (hne : u ≠ s.cur)
    (hj : (s.pc u).cont.isJoin = true ∨ (s'.pc u).cont.isJoin = true) :
    s'.pc u = s.pc u ∧ Touch (s.th u) (s'.th u) := by
  by_cases hn : u = s.nextTid
  · subst hn
    rcases hf.next with ⟨-, hc, ht⟩ | ⟨-, hfr⟩
    · exact ⟨by simp only [pc, hc], ht⟩
    · rcases hfr.pc with h | h <;> simp [pc, hu _ le_rfl, Ctx.start, h, Cont.isJoin] at hj
  · exact ⟨by simp only [pc, hf.ctx u hne hn], hf.th u hne hn⟩

/-- Another thread's `THREAD_JOINED` is set only where it was. -/
theorem SegFrame.joined_of (hf : SegFrame s s') {u : Tid} (hne : u ≠ s.cur) (h : s'.joined u = true) :
    s.joined u = true := by
  by_cases hn : u = s.nextTid
  · subst hn
    rcases hf.next with ⟨-, -, ht⟩ | ⟨-, hfr⟩
    · rwa [joined, ← ht.joined]
    · simp [joined, hfr.joined] at h
  · rwa [joined, ← (hf.th u hne hn).joined]

theorem SegFrame.nextTid_le (hf : SegFrame s s') : s.nextTid ≤ s'.nextTid := by
  rcases hf.next with ⟨h, -⟩ | ⟨h, -⟩ <;> omega

theorem pass_joinwq (s : Sys) : s.pass.joinwq = s.joinwq := by
  cases hs : s.selected with
  | none => rw [pass_none hs]; rfl
  | some n => obtain ⟨e, l, h, -⟩ := pass_some_eq hs; rw [h]; rfl

/-- The timeout branch of a pass touches neither flag of the protocol. -/
theorem pass_flags (s : Sys) (u : Tid) : s.pass.joined u = s.joined u ∧ s.pass.mustjoin u = s.mustjoin u := by
  simp only [joined, mustjoin, pass_th]
  by_cases hu : s.selected = some u
  · rw [scan_th_some hu]
    simp only [Function.update_same, expire]
    split <;> simp
  · rw [scan_th_ne hu]; simp

/-! ## The invariant -/

/-- The invariant of the join protocol. `Single x y l`: `y` is the only caller
of `join_thread(x)` so far. -/
structure JoinInv (s : Sys) : Prop where
  /-- `THREAD_JOINED` is set only by the gate, which says so. -/
  joined : ∀ t, s.joined t = true → .setJoined t ∈ s.log
  gate : ∀ t, (s.pc t).cont = .exitGate → s.joined t = true
  /-- A wait entry is there exactly while its waiter stands in the loop. -/
  waitq : ∀ w x, (w, x) ∈ s.joinwq ↔ (s.pc w).cont = .joinLoop x
  nodup : s.joinwq.Nodup
  loop : ∀ w x, (s.pc w).cont = .joinLoop x → .joinCall w x ∈ s.log
  created : ∀ t k j, .created t k j ∈ s.log → t < s.nextTid
  toExited : ∀ t, .toExited t ∈ s.log → t < s.nextTid
  /-- The `THREAD_MUSTJOIN` of a joinable thread is cleared only by a joiner. -/
  released : ∀ x, .created x .user true ∈ s.log → s.mustjoin x = false → ∃ w, .clearMustjoin w x ∈ s.log
  clear : ∀ w x, .clearMustjoin w x ∈ s.log → .joinCall w x ∈ s.log
  exited : ∀ t ∈ s.exited, s.mustjoin t = false
  returned : ∀ w x, Precedes (.setJoined x) (.joinReturn w x) s.log
  /-- With one joiner `y`: it leaves the loop for good once it cleared the flag, ... -/
  single_loop : ∀ x y, Single x y s.log → .created x .user true ∈ s.log → s.mustjoin x = false →
    (s.pc y).cont ≠ .joinLoop x
  /-- ... it is runnable, parked in the loop, once `x` set `THREAD_JOINED`, ... -/
  single_wake : ∀ x y, x ≠ y → Single x y s.log → s.pc y = .sched (.joinLoop x) → s.joined x = true →
    (s.th y).isRunnable = true
  /-- ... and `x` exits only after `y` cleared its `THREAD_MUSTJOIN`. -/
  single_exit : ∀ x y, Single x y s.log → .created x .user true ∈ s.log →
    Precedes (.clearMustjoin y x) (.toExited x) s.log

theorem joinInv_init : JoinInv init where
  joined t h := by simp only [joined, init] at h; split_ifs at h <;> simp [Thread.none] at h
  gate t h := by simp only [init, pc] at h; split_ifs at h <;> simp [Ctx.start] at h
  waitq w x := by simp only [init, pc]; split_ifs <;> simp [Ctx.start]
  nodup := List.nodup_nil
  loop w x h := by simp only [init, pc] at h; split_ifs at h <;> simp [Ctx.start] at h
  created := by simp [init]
  toExited := by simp [init]
  released := by simp [init]
  clear := by simp [init]
  exited := by simp [init]
  returned _ _ := .of_not_mem (by simp [init])
  single_loop := by simp [init]
  single_wake x y _ _ h := by simp only [init, pc] at h; split_ifs at h; simp [Ctx.start] at h
  single_exit _ _ _ := by simp [init]

/-- With one joiner `y` in the loop for `x`, the search of the wait queue in
the gate of `x` finds `y`. -/
theorem JoinInv.find_joiner (hi : JoinInv s) {x y : Tid} (hs : Single x y s.log)
    (hp : (s.pc y).cont = .joinLoop x) : ∃ jw ∈ s.joinwq.find? (·.2 == x), jw.1 = y := by
  have hq : (y, x) ∈ s.joinwq := (hi.waitq y x).2 hp
  obtain ⟨jw, hjw⟩ := Option.isSome_iff_exists.1
    ((List.find?_isSome (p := fun jw : Tid × Tid => jw.2 == x)).2 ⟨_, hq, by simp⟩)
  have hjw2 : jw.2 = x := by have h := List.find?_some hjw; simpa using h
  exact ⟨jw, hjw, hs _ (hi.loop _ _ ((hi.waitq _ _).1 (hjw2 ▸ List.mem_of_find?_eq_some hjw)))⟩

/-- With one joiner `y`, the `THREAD_MUSTJOIN` of a joinable `x` is clear only
once `y` cleared it. -/
theorem JoinInv.cleared (hi : JoinInv s) {x y : Tid} (hs : Single x y s.log)
    (hc : .created x .user true ∈ s.log) (hm : s.mustjoin x = false) : .clearMustjoin y x ∈ s.log := by
  obtain ⟨w, hw⟩ := hi.released x hc hm
  exact hs w (hi.clear w x hw) ▸ hw

theorem JoinInv.of_joinStep (hi : JoinInv s) (hl : ListInv s) (hu : s.Unborn) (js : JoinStep s s')
    (hf : SegFrame s s') : JoinInv s' := by
  have hc : @LT.lt Nat _ s.cur s.nextTid := hl.cur_lt
  have hn := hf.nextTid_le
  have hmem : ∀ {e}, e ∈ s.log → e ∈ s'.log := mem_of_take js.log
  have hcr : ∀ {x}, .created x .user true ∈ s'.log → s'.mustjoin x = false → .created x .user true ∈ s.log := by
    intro x h hm
    rcases js.created _ _ _ h with h | ⟨-, -, hj⟩
    · exact h
    · simp [hj rfl] at hm
  refine ⟨fun t h => ?joined, fun t h => ?gate, fun w x => ?waitq, js.nodup, fun w x h => ?loop,
    fun t k j h => ?created, fun t h => ?toExited, fun x h hm => ?released, fun w x h => ?clear,
    fun t h => ?exited, fun w x => ?returned, fun x y hs h hm => ?single_loop,
    fun x y hxy hs hp hj => ?single_wake, fun x y hs h => ?single_exit⟩
  case joined =>
    by_cases ht : t = s.cur
    · subst ht
      exact (js.joined h).elim (fun h => hmem (hi.joined _ h)) id
    · exact hmem (hi.joined t (hf.joined_of ht h))
  case gate =>
    by_cases ht : t = s.cur
    · subst ht; exact js.gate h
    · obtain ⟨hp, ht'⟩ := hf.join_other hu ht (.inr (by simp [h, Cont.isJoin]))
      rw [hp] at h
      rw [Sys.joined, ht'.joined]
      exact hi.gate t h
  case waitq =>
    by_cases hw : w = s.cur
    · subst hw; exact js.waitq_cur x
    · rw [js.waitq w x hw, hi.waitq]
      constructor
      · intro h; rwa [(hf.join_other hu hw (.inl (by simp [h, Cont.isJoin]))).1]
      · intro h; rwa [← (hf.join_other hu hw (.inr (by simp [h, Cont.isJoin]))).1]
  case loop =>
    by_cases hw : w = s.cur
    · subst hw
      exact (js.loop x h).elim (fun h => hmem (hi.loop _ _ h)) And.left
    · rw [(hf.join_other hu hw (.inr (by simp [h, Cont.isJoin]))).1] at h
      exact hmem (hi.loop w x h)
  case created =>
    rcases js.created t k j h with h | ⟨rfl, hn', -⟩
    · exact (hi.created t k j h).trans_le hn
    · omega
  case toExited =>
    rcases js.toExited t h with h | ⟨rfl, -⟩
    · exact (hi.toExited t h).trans_le hn
    · exact hc.trans_le hn
  case released =>
    have h := hcr h hm
    have hx := hi.created _ _ _ h
    cases hmx : s.mustjoin x
    · exact (hi.released x h hmx).imp fun w hw => hmem hw
    · rcases js.release x hm hmx with rfl | ⟨hw, -⟩
      · omega
      · exact ⟨_, hw⟩
  case clear => exact (js.clear w x h).elim (fun h => hmem (hi.clear w x h)) id
  case exited =>
    have ht : s.mustjoin t = false ∧ t < s.nextTid := by
      rcases js.exited t h with h | ⟨rfl, hm'⟩
      · exact ⟨hi.exited t h, hl.exited_lt t h⟩
      · exact ⟨hm', hc⟩
    cases hm : s'.mustjoin t
    · rfl
    · rcases js.mustjoin t hm with h | rfl
      · simp [ht.1] at h
      · exact absurd ht.2 (lt_irrefl _)
  case returned => exact (hi.returned w x).extend js.log fun h => (js.joinReturn w x h).imp_right (hi.joined x)
  case single_loop =>
    have h0 := hcr h hm
    have hx := hi.created _ _ _ h0
    cases hmx : s.mustjoin x
    · have hy := hi.single_loop x y (hs.of_take js.log) h0 hmx
      by_cases hyc : y = s.cur
      · subst hyc
        intro hl'
        rcases js.loop x hl' with h' | ⟨-, h'⟩
        · exact hy h'
        · simp [hmx] at h'
      · intro hl'
        rw [(hf.join_other hu hyc (.inr (by simp [hl', Cont.isJoin]))).1] at hl'
        exact hy hl'
    · rcases js.release x hm hmx with rfl | ⟨hw, hne⟩
      · omega
      · rw [← hs _ ((js.clear _ _ hw).elim (fun h => hmem (hi.clear _ _ h)) id)]
        exact hne
  case single_wake =>
    have hs0 := hs.of_take js.log
    by_cases hyc : y = s.cur
    · subst hyc; simp [js.park x hp] at hj
    · obtain ⟨hpy, hty⟩ := hf.join_other hu hyc (.inr (by simp [hp, Cont.isJoin]))
      rw [hpy] at hp
      by_cases hxc : x = s.cur
      · subst hxc
        cases hjx : s.joined s.cur
        · obtain ⟨jw, hjw, rfl⟩ := hi.find_joiner hs0 (by simp [hp])
          exact js.wake hj hjx jw hjw hyc
        · exact hty.isRunnable (hi.single_wake _ _ hxy hs0 hp hjx)
      · exact hty.isRunnable (hi.single_wake x y hxy hs0 hp (hf.joined_of hxc hj))
  case single_exit =>
    have hs0 := hs.of_take js.log
    have hold : Precedes (.clearMustjoin y x) (.toExited x) s.log := by
      by_cases h0 : .created x .user true ∈ s.log
      · exact hi.single_exit x y hs0 h0
      · refine .of_not_mem fun ht => ?_
        rcases js.created _ _ _ h with h' | ⟨rfl, -⟩
        · exact h0 h'
        · exact lt_irrefl _ (hi.toExited _ ht)
    refine hold.extend js.log fun ht => ?_
    rcases js.toExited x ht with ht | ⟨rfl, hm⟩
    · exact .inl ht
    · have h0 : .created s.cur .user true ∈ s.log := by
        rcases js.created _ _ _ h with h' | ⟨h', -⟩
        · exact h'
        · omega
      exact .inr (hi.cleared hs0 h0 hm)

theorem JoinInv.pass (hi : JoinInv s) (hl : ListInv s) : JoinInv s.pass := by
  obtain ⟨l, hl', hs⟩ := pass_log s
  have hmem : ∀ e, e.isSched = false → (e ∈ s.pass.log ↔ e ∈ s.log) := fun e he => by
    rw [hl', List.mem_append]
    exact or_iff_left fun h => by simp [hs e h] at he
  have ht : s.pass.log.take s.log.length = s.log := by simp [hl']
  have hj := fun u => (pass_flags s u).1
  have hm := fun u => (pass_flags s u).2
  refine ⟨fun t h => (hmem _ (by rfl)).2 (hi.joined t (hj t ▸ h)), fun t h => hj t ▸ hi.gate t (pass_cont s t ▸ h),
    fun w x => by rw [pass_joinwq, pass_cont, hi.waitq], pass_joinwq s ▸ hi.nodup,
    fun w x h => (hmem _ (by rfl)).2 (hi.loop w x (pass_cont s w ▸ h)),
    fun t k j h => pass_nextTid s ▸ hi.created t k j ((hmem _ (by rfl)).1 h),
    fun t h => pass_nextTid s ▸ hi.toExited t ((hmem _ (by rfl)).1 h),
    fun x h hmx => (hi.released x ((hmem _ (by rfl)).1 h) (hm x ▸ hmx)).imp fun w hw => (hmem _ (by rfl)).2 hw,
    fun w x h => (hmem _ (by rfl)).2 (hi.clear w x ((hmem _ (by rfl)).1 h)),
    fun t h => hm t ▸ hi.exited t (hl.pass_lists.1 t h),
    fun w x => (hi.returned w x).extend ht fun h => .inl ((hmem _ (by rfl)).1 h),
    fun x y hs h hmx => by
      rw [pass_cont]; exact hi.single_loop x y (hs.of_take ht) ((hmem _ (by rfl)).1 h) (hm x ▸ hmx),
    fun x y hxy hs hp hjx => ?_,
    fun x y hs h => (hi.single_exit x y (hs.of_take ht) ((hmem _ (by rfl)).1 h)).extend ht
      fun h => .inl ((hmem _ (by rfl)).1 h)⟩
  have hsel : s.selected ≠ some y := fun h => by rw [pass_pc_selected h] at hp; cases hp
  have hth : s.pass.th y = s.th y := by rw [pass_th]; exact scan_th_ne hsel
  rw [hth]
  exact hi.single_wake x y hxy (hs.of_take ht) (by simpa only [pc, pass_ctx s hsel] using hp) (hj x ▸ hjx)

/-- An interrupt wakes a thread, which touches neither flag of the protocol. -/
theorem JoinInv.wake (hi : JoinInv s) (t : Tid) : JoinInv (s.wake t) := by
  have hj : ∀ u, (s.wake t).joined u = s.joined u ∧ (s.wake t).mustjoin u = s.mustjoin u := fun u => by
    by_cases hu : u = t <;> simp [hu, Sys.joined, Sys.mustjoin]
  refine ⟨fun u h => hi.joined u ((hj u).1 ▸ h), fun u h => (hj u).1 ▸ hi.gate u h, hi.waitq, hi.nodup,
    hi.loop, hi.created, hi.toExited, fun x h hmx => hi.released x h ((hj x).2 ▸ hmx), hi.clear,
    fun u h => (hj u).2 ▸ hi.exited u h, hi.returned, fun x y hs h hmx => hi.single_loop x y hs h ((hj x).2 ▸ hmx),
    fun x y hxy hs hp hjx => ?_, hi.single_exit⟩
  by_cases hy : y = t
  · subst hy; simp
  · simpa [hy] using hi.single_wake x y hxy hs hp ((hj x).1 ▸ hjx)

theorem JoinInv.preserved (hi : JoinInv s) (hl : ListInv s) (hu : s.Unborn) {a : Act}
    (h : step s a = some s') : JoinInv s' := by
  have hc : s.cur ≠ s.nextTid := Nat.ne_of_lt hl.cur_lt
  have hw : ∀ x, (s.cur, x) ∈ s.joinwq ↔ (s.pc s.cur).cont = .joinLoop x := hi.waitq s.cur
  cases a
  case pass => obtain ⟨-, -, -, rfl⟩ := step_pass h; exact hi.pass hl
  case tick => obtain ⟨-, rfl⟩ := step_tick h; exact { hi with }
  case irq t => obtain ⟨-, -, -, rfl⟩ := step_irq h; exact hi.wake t
  all_goals
    have js := joinStep_of_step hc hw hi.nodup (hi.loop s.cur) (by rfl) h
    exact hi.of_joinStep hl hu js (segFrame_of_step hc (by simp) h)

theorem joinInv_of_reachable (h : Reachable s) : JoinInv s := by
  induction h with
  | init => exact joinInv_init
  | step a hs hst ih => exact ih.preserved (listInv_of_reachable hs) (unborn_of_reachable hs) hst

/-- **The join protocol.** For a thread `x` created joinable, and a thread
`y ≠ x` that is the only caller of `join_thread(x)`: (a) `join_thread(x)`
returns only after `x` set `THREAD_JOINED` in the gate of `exit_thread`; (b)
`x` is pushed on the exited list only after `y` cleared its
`THREAD_MUSTJOIN`, and once it is there no wait entry names it; (c) `x` parked
in the gate and `y` parked in the loop are never both not runnable. -/
theorem join_protocol (h : Reachable s) {x y : Tid} (hxy : x ≠ y) (hc : .created x .user true ∈ s.log)
    (hs : Single x y s.log) :
    Precedes (.setJoined x) (.joinReturn y x) s.log ∧
    Precedes (.clearMustjoin y x) (.toExited x) s.log ∧
    (x ∈ s.exited → ∀ w, (w, x) ∉ s.joinwq ∧ (x, w) ∉ s.joinwq) ∧
    ¬(s.pc x = .sched .exitGate ∧ (s.th x).isRunnable = false ∧
      s.pc y = .sched (.joinLoop x) ∧ (s.th y).isRunnable = false) := by
  have hi := joinInv_of_reachable h
  refine ⟨hi.returned y x, hi.single_exit x y hs hc, fun hx w => ⟨fun hw => ?_, fun hw => ?_⟩,
    fun ⟨hx, _, hy, hr⟩ => ?_⟩
  · have hl := (hi.waitq w x).1 hw
    obtain rfl := hs w (hi.loop w x hl)
    exact hi.single_loop x w hs hc (hi.exited x hx) hl
  · have := (hi.waitq x w).1 hw
    simp [(listInv_of_reachable h).exited_pc x hx] at this
  · simp [hi.single_wake x y hxy hs hy (hi.gate x (by simp [hx]))] at hr

/-- The protocol run to its end: thread 1 creates the joinable thread 2 and
joins it, 2 sets `THREAD_JOINED` and parks in the gate, 1 clears
`THREAD_MUSTJOIN` and returns, and 2 goes to the exited list. -/
theorem join_protocol_exited : ∃ s, Reachable s ∧
    s.log = [.created 2 .user true, .joinCall 1 2, .setJoined 2, .clearMustjoin 1 2, .joinReturn 1 2,
      .toExited 2] ∧ 2 ∈ s.exited ∧
    Precedes (.setJoined 2) (.joinReturn 1 2) s.log ∧
    Precedes (.clearMustjoin 1 2) (.toExited 2) s.log ∧
    (2 ∈ s.exited → ∀ w, (w, 2) ∉ s.joinwq ∧ (2, w) ∉ s.joinwq) ∧
    ¬(s.pc 2 = .sched .exitGate ∧ (s.th 2).isRunnable = false ∧
      s.pc 1 = .sched (.joinLoop 2) ∧ (s.th 1).isRunnable = false) := by
  obtain ⟨s, hr, hp⟩ := reach_of_run (l := [.run, .pass, .call (.createThread none 0 true),
      .call (.joinThread 2), .pass, .call .exitThread, .pass, .run, .call .schedule, .pass, .run])
    (p := fun s => s.log == [.created 2 .user true, .joinCall 1 2, .setJoined 2, .clearMustjoin 1 2,
      .joinReturn 1 2, .toExited 2] && decide (2 ∈ s.exited)) (by decide)
  simp only [Bool.and_eq_true, beq_iff_eq, decide_eq_true_eq] at hp
  obtain ⟨hl, he⟩ := hp
  exact ⟨s, hr, hl, he, join_protocol hr (by decide) (by simp [hl])
    (fun w hw => by simp only [hl] at hw; simpa using hw)⟩

/-! ## The wait entries -/

/-- A reclaimed thread is neither current nor selected, so no step moves it
from the last loop of `exit_thread`, where the reap loop found it. -/
theorem ListInv.freed_pc (hi : ListInv s) (hf : ∀ t, s.Freed t → s.pc t = .sched .exitDead)
    {a : Act} (h : step s a = some s') : ∀ t, s'.Freed t → s'.pc t = .sched .exitDead := by
  have hcur : ∀ t, s.Freed t → t ≠ s.cur := fun t ht he =>
    hi.cur_live.elim (hi.freed_runq t ht <| he ▸ ·) (hi.freed_exited t ht <| he ▸ ·)
  intro t ht
  cases listsMove_of_step (hi.not_run_exitDead _) h with
  | keep hk _ =>
    have ht := (hk.freed t).1 ht
    rw [hk.pc t (hcur t ht), hf t ht]
  | create cookie k stack _ _ hk _ =>
    have ht : s.Freed t := by simpa [Freed] using (hk.freed t).1 ht
    have htn : t ≠ s.nextTid := Nat.ne_of_lt (hi.freed_lt t ht)
    rw [hk.pc t (by simpa using hcur t ht), ← hf t ht]
    simp [pc, htn]
  | exit _ he =>
    have ht : s.Freed t := by simpa only [Freed, ← List.count_pos_iff, he.xfree] using ht
    rw [he.pc t (hcur t ht), hf t ht]
  | pass _ hs _ =>
    subst hs
    have hd : s.Freed t ∨ t ∈ s.exited := (em (s.Freed t)).imp_right fun h0 => (hi.pass_lists.2 t h0 ht).1
    have hnr : t ∉ s.runq := hd.elim (hi.freed_runq t) fun hx hr => hi.disjoint t hr hx
    rw [pc, pass_ctx s fun hn => hnr (scan_mem hn)]
    exact hd.elim (hf t) (hi.exited_pc t)

/-- In every reachable state a reclaimed thread stands in the last loop of
`exit_thread`. -/
theorem freed_pc_of_reachable (h : Reachable s) : ∀ t, s.Freed t → s.pc t = .sched .exitDead := by
  induction h with
  | init => simp [Freed, init]
  | step a hs hst ih => exact (listInv_of_reachable hs).freed_pc ih hst

/-- **Every entry of the join-wait queue is the frame of a live waiter.**
`join_thread` links a `struct join_waiter` on its own stack into `joinwq`,
and unlinks it when its `schedule()` returns. In every reachable state, with
any number of joiners, the queue holds no entry twice, and `(w, x)` is on it
exactly while `w` stands in the loop of `join_thread(x)`, on the run list:
the gate of `exit_thread`, which walks the queue, never reads the frame of a
thread that has left `join_thread` or has been reclaimed. -/
theorem join_waiters_live (h : Reachable s) :
    s.joinwq.Nodup ∧ ∀ w x, (w, x) ∈ s.joinwq ↔ (s.pc w).cont = .joinLoop x ∧ w ∈ s.runq := by
  have hi := joinInv_of_reachable h
  have hl := listInv_of_reachable h
  refine ⟨hi.nodup, fun w x => ⟨fun hw => ⟨(hi.waitq w x).1 hw, ?_⟩, fun hw => (hi.waitq w x).2 hw.1⟩⟩
  have hp := (hi.waitq w x).1 hw
  have hlt : w < s.nextTid := Nat.lt_of_not_le fun hge => by
    rw [pc, unborn_of_reachable h w hge] at hp; cases hp
  rcases hl.cover w hlt with hr | hx | hf
  · exact hr
  · rw [hl.exited_pc w hx] at hp; cases hp
  · rw [freed_pc_of_reachable h w hf] at hp; cases hp

/-- Thread 1 waits in `join_thread(2)` for the joinable thread it created. -/
theorem join_waiters_live_boot :
    ((run init [.run, .pass, .call (.createThread none 0 true), .call (.joinThread 2)]).getD init).joinwq =
      [(1, 2)] ∧
    ((run init [.run, .pass, .call (.createThread none 0 true), .call (.joinThread 2)]).getD init).joinwq.Nodup ∧
    ∀ w x, (w, x) ∈ ((run init [.run, .pass, .call (.createThread none 0 true),
        .call (.joinThread 2)]).getD init).joinwq ↔
      (((run init [.run, .pass, .call (.createThread none 0 true), .call (.joinThread 2)]).getD init).pc w).cont =
        .joinLoop x ∧
      w ∈ ((run init [.run, .pass, .call (.createThread none 0 true), .call (.joinThread 2)]).getD init).runq :=
  ⟨by decide, join_waiters_live (reachable_getD _)⟩

end

end Sys
end RumpuserXen
