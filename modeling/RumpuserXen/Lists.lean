import RumpuserXen.Frame

/-
  The thread lists of sched.c

  `thread_list` (the run list R, `Sys.runq`), `exited_threads` (the exited
  list E, `Sys.exited`) and the descriptors the reap loop of `schedule()`
  has handed to `xfree` (`Sys.Freed`).

  What is proved:
    1. `reap_eq` — the reap loop, run by a thread that is not on E, empties
       E and frees each member once, in order.
    2. `ListInv` holds in every reachable state (`listInv_of_reachable`): R
       and E are duplicate-free and disjoint; every thread `create_thread`
       returned is in exactly one of R, E and the reclaimed descriptors,
       reclaimed at most once; an exited thread is parked in the last loop
       of `exit_thread`; no thread but the current one is on the CPU.
    3. `ListsStep` — what one step does to the lists: a thread enters E only
       from R, through `exit_thread`; `schedule()` switches only to a member
       of R; the reap loop reclaims only members of E other than the thread
       that runs it, and none of R; a pass that resumes a thread inside its
       own `schedule()` empties E and reclaims each member exactly once
       (`ListInv.pass_reaps`).
-/

namespace RumpuserXen
namespace Sys

/-- The descriptor of `t` went to `xfree`. -/
def Freed (s : Sys) (t : Tid) : Prop := Event.xfree t ∈ s.log

/-! ## The reap loop -/

/-- What the reap loop asks of the allocator for the exited threads `l`:
`free_pages` of the stack unless `THREAD_EXTSTACK` is set, then `xfree`. -/
def reapEvents (th : Tid → Thread) : List Tid → List Event
  | [] => []
  | t :: l =>
    (if hasFlag (th t).flags threadExtstack then [] else [.freePages (th t).stack]) ++
      .xfree t :: reapEvents th l

theorem foldl_reapOne (prev : Tid) : ∀ (l : List Tid) (s : Sys), s.exited = l → prev ∉ l →
    l.foldl (fun s t => s.reapOne prev t) s =
      { s with exited := [], log := s.log ++ reapEvents s.th l }
  | [], s, h, _ => by cases s; simp_all [reapEvents]
  | t :: l, s, h, hp => by
    have ht : t ≠ prev := fun e => hp (e ▸ List.mem_cons_self t l)
    have hs : (s.reapOne prev t).exited = l := by
      simp only [reapOne, if_pos ht]; split <;> simp [h]
    have hth : (s.reapOne prev t).th = s.th := by
      funext u; simp only [reapOne, if_pos ht]; split <;> simp
    rw [List.foldl_cons, foldl_reapOne prev l _ hs (fun hm => hp (List.mem_cons_of_mem t hm)), hth]
    simp only [reapOne, if_pos ht, reapEvents]
    split <;> simp [funext_iff]

/-- The reap loop in a thread that is not on the exited list. -/
theorem reap_eq {s : Sys} {prev : Tid} (h : prev ∉ s.exited) :
    s.reap prev = { s with exited := [], log := s.log ++ reapEvents s.th s.exited } :=
  foldl_reapOne prev s.exited s rfl h

@[simp] theorem count_xfree_reapEvents (th : Tid → Thread) (t : Tid) :
    ∀ l : List Tid, (reapEvents th l).count (.xfree t) = l.count t
  | [] => rfl
  | u :: l => by
    simp only [reapEvents, List.count_append, List.count_cons, count_xfree_reapEvents th t l]
    split <;> simp [Nat.add_comm]

/-- The selected thread resumes: the reap loop, if it returns from its own
`schedule()`, reclaims exited threads and nothing else. -/
theorem resume_lists (s : Sys) {n : Tid} (hn : n ∉ s.exited) :
    (s.resume n).cur = s.cur ∧ (s.resume n).runq = s.runq ∧
      (∀ t ∈ (s.resume n).exited, t ∈ s.exited) ∧
      ∀ t, (s.resume n).Freed t → s.Freed t ∨ t ∈ s.exited := by
  unfold resume
  split
  · rw [reap_eq hn]
    refine ⟨rfl, rfl, by simp, fun t ht => ?_⟩
    simpa [Freed, ← List.count_pos_iff, List.count_append] using ht
  · exact ⟨rfl, rfl, fun t ht => ht, fun t ht => .inl ht⟩
  · exact ⟨rfl, rfl, fun t ht => ht, fun t ht => .inl ht⟩

/-! ## The invariant -/

/-- The thread lists in a reachable state. -/
structure ListInv (s : Sys) : Prop where
  runq_nodup : s.runq.Nodup
  exited_nodup : s.exited.Nodup
  disjoint : ∀ t ∈ s.runq, t ∉ s.exited
  runq_lt : ∀ t ∈ s.runq, t < s.nextTid
  exited_lt : ∀ t ∈ s.exited, t < s.nextTid
  freed_lt : ∀ t, s.Freed t → t < s.nextTid
  /-- Every thread `create_thread` returned is on a list or reclaimed. -/
  cover : ∀ t < s.nextTid, t ∈ s.runq ∨ t ∈ s.exited ∨ s.Freed t
  freed_runq : ∀ t, s.Freed t → t ∉ s.runq
  freed_exited : ∀ t, s.Freed t → t ∉ s.exited
  freed_once : ∀ t, s.log.count (.xfree t) ≤ 1
  cur_live : s.cur ∈ s.runq ∨ s.cur ∈ s.exited
  /-- An exited thread is parked in the last loop of `exit_thread`. -/
  exited_pc : ∀ t ∈ s.exited, s.pc t = .sched .exitDead
  runq_pc : ∀ t ∈ s.runq, (s.pc t).cont ≠ .exitDead
  /-- Only the current thread is on the CPU. -/
  parked : ∀ t, t ≠ s.cur → (s.pc t).isRun = false

theorem listInv_init : ListInv init where
  runq_nodup := by decide
  exited_nodup := List.nodup_nil
  disjoint := by simp [init]
  runq_lt := by decide
  exited_lt := by simp [init]
  freed_lt := by simp [Freed, init]
  cover t ht := by simp only [init] at ht; simp [init]; omega
  freed_runq := by simp [Freed, init]
  freed_exited := by simp [Freed, init]
  freed_once := by simp [init]
  cur_live := by decide
  exited_pc := by simp [init]
  runq_pc := by simp [init, pc, Ctx.start, Pc.cont]
  parked t ht := by simp only [init] at ht; simp [init, pc, ht, Ctx.start, Pc.isRun]

section
variable {s s' : Sys}

/-- A step that leaves the thread lists, the current thread, the program
points of the other threads and the reclaimed descriptors as they were. -/
structure Keeps (s s' : Sys) : Prop where
  runq : s'.runq = s.runq
  exited : s'.exited = s.exited
  nextTid : s'.nextTid = s.nextTid
  cur : s'.cur = s.cur
  pc : ∀ u, u ≠ s.cur → s'.pc u = s.pc u
  xfree : ∀ t, s'.log.count (.xfree t) = s.log.count (.xfree t)

theorem Keeps.freed (hk : Keeps s s') (t : Tid) : s'.Freed t ↔ s.Freed t := by
  simp only [Freed, ← List.count_pos_iff, hk.xfree]

/-- A thread on the CPU is on the run list, away from `exit_thread`'s last loop. -/
theorem ListInv.running (hi : ListInv s) {k : Cont} (h : s.pc s.cur = .run k) :
    s.cur ∈ s.runq ∧ k ≠ .exitDead := by
  have hc : s.cur ∈ s.runq := hi.cur_live.resolve_right fun he => by simp [hi.exited_pc _ he] at h
  exact ⟨hc, by simpa [h, Pc.cont] using hi.runq_pc _ hc⟩

theorem ListInv.cur_lt (hi : ListInv s) : s.cur < s.nextTid :=
  hi.cur_live.elim (hi.runq_lt _) (hi.exited_lt _)

theorem ListInv.running' (hi : ListInv s) (h : (s.pc s.cur).isRun) : s.cur ∈ s.runq := by
  cases hp : s.pc s.cur with
  | run k => exact (hi.running hp).1
  | _ => simp [hp, Pc.isRun] at h

/-- A step that keeps the lists keeps the invariant, if it leaves the current
thread where it was or, for a member of the run list, away from the last loop
of `exit_thread`. -/
theorem ListInv.keeps (hi : ListInv s) (hk : Keeps s s')
    (hpc : s'.pc s.cur = s.pc s.cur ∨ s.cur ∈ s.runq ∧ (s'.pc s.cur).cont ≠ .exitDead) :
    ListInv s' := by
  have hf := hk.freed
  obtain ⟨hr, he, hn, hc, hp, hx⟩ := hk
  constructor <;> simp only [hr, he, hn, hc, hf, hx]
  case exited_pc =>
    intro t ht
    by_cases htc : t = s.cur
    · subst htc
      rcases hpc with h | h
      · rw [h]; exact hi.exited_pc _ ht
      · exact absurd ht (hi.disjoint _ h.1)
    · rw [hp t htc]; exact hi.exited_pc t ht
  case runq_pc =>
    intro t ht
    by_cases htc : t = s.cur
    · subst htc
      rcases hpc with h | h
      · rw [h]; exact hi.runq_pc _ ht
      · exact h.2
    · rw [hp t htc]; exact hi.runq_pc t ht
  case parked => intro t ht; rw [hp t ht]; exact hi.parked t ht
  all_goals first
    | exact hi.runq_nodup | exact hi.exited_nodup | exact hi.disjoint | exact hi.runq_lt
    | exact hi.exited_lt | exact hi.freed_lt | exact hi.cover | exact hi.freed_runq
    | exact hi.freed_exited | exact hi.freed_once | exact hi.cur_live

theorem ListInv.createThread (hi : ListInv s) (cookie : Nat) (k : Cont) (stack : Option Nat)
    (hk : k ≠ .exitDead) : ListInv (s.createThread cookie k stack) := by
  have hnr : s.nextTid ∉ s.runq := fun h => Nat.lt_irrefl _ (hi.runq_lt _ h)
  have hne : s.nextTid ∉ s.exited := fun h => Nat.lt_irrefl _ (hi.exited_lt _ h)
  have hpc : ∀ t, t ≠ s.nextTid → (s.createThread cookie k stack).pc t = s.pc t := by
    intro t ht; simp [pc, ht]
  have hpn : (s.createThread cookie k stack).pc s.nextTid = .fresh k := by simp [pc, Ctx.start]
  constructor <;> simp only [createThread_runq, createThread_exited, createThread_nextTid,
    createThread_cur, Freed, createThread_log, List.mem_append, List.mem_singleton]
  case runq_nodup => exact hi.runq_nodup.append (List.nodup_singleton _) (by simpa using hnr)
  case disjoint => rintro t (ht | rfl); exacts [hi.disjoint t ht, hne]
  case runq_lt => rintro t (ht | rfl); exacts [Nat.lt_succ_of_lt (hi.runq_lt t ht), Nat.lt_succ_self _]
  case exited_lt => exact fun t ht => Nat.lt_succ_of_lt (hi.exited_lt t ht)
  case freed_lt => exact fun t ht => Nat.lt_succ_of_lt (hi.freed_lt t ht)
  case cover =>
    intro t ht
    rcases Nat.lt_succ_iff_lt_or_eq.1 ht with ht | rfl
    · rcases hi.cover t ht with h | h | h
      · simp [h]
      · simp [h]
      · exact .inr (.inr h)
    · simp
  case freed_runq =>
    rintro t hf (ht | rfl)
    exacts [hi.freed_runq t hf ht, Nat.lt_irrefl _ (hi.freed_lt _ hf)]
  case cur_live => rcases hi.cur_live with h | h <;> simp [h]
  case exited_pc =>
    intro t ht
    rw [hpc t (by rintro rfl; exact hne ht)]; exact hi.exited_pc t ht
  case runq_pc =>
    rintro t (ht | rfl)
    · rw [hpc t (by rintro rfl; exact hnr ht)]; exact hi.runq_pc t ht
    · rw [hpn]; exact hk
  case parked =>
    intro t ht
    by_cases htn : t = s.nextTid
    · subst htn; rw [hpn]; rfl
    · rw [hpc t htn]; exact hi.parked t ht
  all_goals first | exact hi.exited_nodup | exact hi.freed_exited | exact hi.freed_once

/-- `exit_thread`'s move of the current thread from the run list to the
exited list, where it stays parked. -/
structure Exits (s s' : Sys) : Prop where
  runq : s'.runq = s.runq.erase s.cur
  exited : s'.exited = s.cur :: s.exited
  nextTid : s'.nextTid = s.nextTid
  cur : s'.cur = s.cur
  pc_cur : s'.pc s.cur = .sched .exitDead
  pc : ∀ u, u ≠ s.cur → s'.pc u = s.pc u
  xfree : ∀ t, s'.log.count (.xfree t) = s.log.count (.xfree t)

theorem ListInv.exits (hi : ListInv s) (hc : s.cur ∈ s.runq) (he : Exits s s') : ListInv s' := by
  have hf : ∀ t, s'.Freed t ↔ s.Freed t := by simp only [Freed, ← List.count_pos_iff, he.xfree, implies_true]
  have hmem : ∀ t, t ∈ s.runq.erase s.cur ↔ t ≠ s.cur ∧ t ∈ s.runq := fun t =>
    hi.runq_nodup.mem_erase_iff
  obtain ⟨hr, hex, hn, hcur, hpcc, hp, hx⟩ := he
  constructor <;> simp only [hr, hex, hn, hcur, hf, hx, hmem, List.mem_cons]
  case runq_nodup => exact hi.runq_nodup.erase _
  case exited_nodup => exact List.nodup_cons.2 ⟨hi.disjoint _ hc, hi.exited_nodup⟩
  case disjoint => rintro t ⟨htc, ht⟩ (rfl | h); exacts [htc rfl, hi.disjoint t ht h]
  case runq_lt => exact fun t ht => hi.runq_lt t ht.2
  case exited_lt => rintro t (rfl | ht); exacts [hi.runq_lt _ hc, hi.exited_lt t ht]
  case cover =>
    intro t ht
    by_cases htc : t = s.cur
    · simp [htc]
    · rcases hi.cover t ht with h | h | h <;> simp [h, htc]
  case freed_runq => exact fun t hf ht => hi.freed_runq t hf ht.2
  case freed_exited =>
    rintro t hf (rfl | ht); exacts [hi.freed_runq _ hf hc, hi.freed_exited t hf ht]
  case cur_live => simp
  case exited_pc =>
    rintro t (rfl | ht)
    · exact hpcc
    · rw [hp t (fun h => hi.disjoint _ hc (h ▸ ht))]; exact hi.exited_pc t ht
  case runq_pc => intro t ht; rw [hp t ht.1]; exact hi.runq_pc t ht.2
  case parked => intro t ht; rw [hp t ht]; exact hi.parked t ht
  all_goals first | exact hi.freed_lt | exact hi.freed_once

theorem keeps_setPc (s : Sys) (p : Pc) : Keeps s (s.setPc s.cur p) :=
  ⟨rfl, rfl, rfl, rfl, fun u hu => by simp [pc, hu], fun _ => rfl⟩

/-- The switch keeps the invariant, with the thread that called `schedule()`
parked and the selected member of the run list current. -/
theorem ListInv.handoff (hi : ListInv s) {n : Tid} (hn : n ∈ s.runq)
    (hk : (s.pc s.cur).isRun = false) : ListInv (s.handoff n) := by
  have hmem : ∀ t, t ∈ s.runq.erase n ++ [n] ↔ t ∈ s.runq := fun t => by
    rw [List.mem_append, hi.runq_nodup.mem_erase_iff, List.mem_singleton]
    by_cases h : t = n <;> simp [h, hn]
  have hx : ∀ t, (s.handoff n).log.count (.xfree t) = s.log.count (.xfree t) := by
    intro t; simp only [handoff_log]; split <;> simp
  have hf : ∀ t, (s.handoff n).Freed t ↔ s.Freed t := by
    simp only [Freed, ← List.count_pos_iff, hx, implies_true]
  have hpc : ∀ t, (s.handoff n).pc t = s.pc t := fun t => rfl
  constructor <;> simp only [handoff_runq, handoff_exited, handoff_nextTid, handoff_cur, hpc, hmem, hf, hx]
  case runq_nodup =>
    exact (hi.runq_nodup.erase n).append (List.nodup_singleton n)
      (by simp [hi.runq_nodup.mem_erase_iff])
  case cur_live => exact .inl hn
  case parked =>
    intro t ht
    by_cases htc : t = s.cur
    · subst htc; exact hk
    · exact hi.parked t htc
  all_goals first
    | exact hi.exited_nodup | exact hi.disjoint | exact hi.runq_lt | exact hi.exited_lt
    | exact hi.freed_lt | exact hi.cover | exact hi.freed_runq | exact hi.freed_exited
    | exact hi.freed_once | exact hi.exited_pc | exact hi.runq_pc

/-- The reap loop keeps the invariant: the exited threads are reclaimed. -/
theorem ListInv.reap (hi : ListInv s) (hc : s.cur ∉ s.exited) : ListInv (s.reap s.cur) := by
  rw [reap_eq hc]
  have hx : ∀ t, (s.log ++ reapEvents s.th s.exited).count (.xfree t) =
      s.log.count (.xfree t) + s.exited.count t := by simp [List.count_append]
  have hf : ∀ t, Event.xfree t ∈ s.log ++ reapEvents s.th s.exited ↔ s.Freed t ∨ t ∈ s.exited := by
    simp only [← List.count_pos_iff, hx, Freed]; omega
  have hcr : s.cur ∈ s.runq := hi.cur_live.resolve_right hc
  constructor <;> simp only [Freed, hf, List.not_mem_nil, false_or, hx]
  case exited_nodup => exact List.nodup_nil
  case disjoint => simp
  case exited_lt => simp
  case freed_lt => rintro t (h | h); exacts [hi.freed_lt t h, hi.exited_lt t h]
  case cover =>
    intro t ht
    rcases hi.cover t ht with h | h | h
    exacts [.inl h, .inr (.inr h), .inr (.inl h)]
  case freed_runq => rintro t (h | h); exacts [hi.freed_runq t h, fun h' => hi.disjoint t h' h]
  case freed_exited => simp
  case freed_once =>
    intro t
    by_cases ht : t ∈ s.exited
    · rw [List.count_eq_zero.2 (fun h => hi.freed_exited t h ht),
        List.count_eq_one_of_mem hi.exited_nodup ht]
    · rw [List.count_eq_zero.2 ht]; exact hi.freed_once t
  case cur_live => exact .inl hcr
  case exited_pc => simp
  all_goals first
    | exact hi.runq_nodup | exact hi.runq_lt | exact hi.runq_pc | exact hi.parked

/-- The selected thread resumes: it returns from its own `schedule()`, whose
reap loop runs, or it starts its entry function. -/
theorem ListInv.resume (hi : ListInv s) (hc : s.cur ∈ s.runq) : ListInv (s.resume s.cur) := by
  unfold Sys.resume
  split
  · next k hk =>
    have hk' : k ≠ .exitDead := by simpa [hk, Pc.cont] using hi.runq_pc _ hc
    have hr := hi.reap (hi.disjoint _ hc)
    rw [reap_eq (hi.disjoint _ hc)] at hr ⊢
    exact hr.keeps (keeps_setPc _ _) (.inr ⟨hc, by simpa [pc, Pc.cont] using hk'⟩)
  · next k hk =>
    have hk' : k ≠ .exitDead := by simpa [hk, Pc.cont] using hi.runq_pc _ hc
    exact hi.keeps (keeps_setPc _ _) (.inr ⟨hc, by simpa [pc, Pc.cont] using hk'⟩)
  · exact hi

/-- A pass of `schedule()`'s loop keeps the invariant. -/
theorem ListInv.pass (hi : ListInv s) {k : Cont} (hk : s.pc s.cur = .sched k) : ListInv s.pass := by
  cases hsel : s.selected with
  | none =>
    rw [pass_none hsel]
    exact hi.keeps ⟨rfl, rfl, rfl, rfl, fun _ _ => rfl, by simp⟩ (.inl rfl)
  | some n =>
    rw [pass_some hsel]
    have hn : n ∈ s.runq := scan_mem hsel
    exact (hi.handoff hn (by rw [hk]; rfl)).resume (by simp)

/-! ## The steps -/

/-- Code that writes neither list, creates no thread, reclaims nothing and
ends away from `exit_thread`'s last loop keeps the lists. -/
theorem Footprint.keeps {w : Writes} (hf : Footprint w s s') (hl : w.lists = false) (hc : w.create = none)
    (hx : .xfree ∉ w.emits) (hd : ∀ p ∈ w.ends, p.cont ≠ .exitDead) :
    Keeps s s' ∧ (s'.pc s.cur).cont ≠ .exitDead := by
  refine ⟨⟨hf.runq hl, hf.exited hl, (hf.kept hc).1, hf.cur, fun u hu => ?_, fun t => ?_⟩, hd _ hf.ends⟩
  · by_cases hn : u = s.nextTid
    · subst hn; simp only [pc, ((hf.kept hc).2 (Ne.symm hu)).1]
    · simp only [pc, hf.ctx u hu hn]
  · exact hf.countP_log fun e he => by rw [beq_iff_eq] at he; subst he; exact hx

/-- Every entry point but `create_thread` and `exit_thread` keeps the lists,
and returns to its caller or parks it away from `exit_thread`'s last loop. -/
theorem keeps_call {c : Call} (hpc : s.pc s.cur = .run .user) (h : s.call c = some s')
    (hc : ∀ a b d, c ≠ .createThread a b d) (he : c ≠ .exitThread) :
    Keeps s s' ∧ (s'.pc s.cur).cont ≠ .exitDead := by
  refine (footprint_call hpc h).keeps ?_ ?_ ?_ ?_ <;> cases c <;> simp_all

/-- Every stretch of code after a `schedule()` but in `exit_thread` and the
spawn of the pump keeps the lists, and leaves the thread away from
`exit_thread`'s last loop. -/
theorem keeps_cont {k : Cont} (hpc : s.pc s.cur = .run k) (h : s.cont k = some s')
    (hd : k ≠ .exitDead) (he : k ≠ .exitGate) (hb : ∀ a, k ≠ .bioSpawn a) :
    Keeps s s' ∧ (s'.pc s.cur).cont ≠ .exitDead := by
  refine (footprint_cont hpc h).keeps ?_ ?_ ?_ ?_ <;> cases k <;> simp_all

/-- What a step does to the thread lists. -/
inductive ListsMove (s : Sys) : Act → Sys → Prop
  /-- The lists stay; the current thread stays where it is, or leaves the CPU
  for a point away from the last loop of `exit_thread`. -/
  | keep {a s'} : Keeps s s' →
      s'.pc s.cur = s.pc s.cur ∨ (s.pc s.cur).isRun ∧ (s'.pc s.cur).cont ≠ .exitDead →
      ListsMove s a s'
  /-- `create_thread`, then code that keeps the lists. -/
  | create {a s'} (cookie : Nat) (k : Cont) (stack : Option Nat) : k ≠ .exitDead →
      (s.pc s.cur).isRun → Keeps (s.createThread cookie k stack) s' →
      (s'.pc s.cur).cont ≠ .exitDead → ListsMove s a s'
  /-- `exit_thread` moves its caller from the run list to the exited list. -/
  | exit {a s'} :
      a = .call .exitThread ∧ s.pc s.cur = .run .user ∨ a = .run ∧ s.pc s.cur = .run .exitGate →
      Exits s s' → ListsMove s a s'
  /-- A pass of the selection loop of `schedule()`. -/
  | pass {a s'} {k} : a = .pass → s' = s.pass → s.pc s.cur = .sched k → ListsMove s a s'

/-- `exit_thread`'s gate parks its caller at the gate, or moves it to the
exited list for good. -/
theorem exitGate_move {a : Act}
    (ha : a = .call .exitThread ∧ s.pc s.cur = .run .user ∨ a = .run ∧ s.pc s.cur = .run .exitGate) :
    ListsMove s a (s.irqSave s.cur).exitGate := by
  have hr : (s.pc s.cur).isRun := by rcases ha with ⟨-, h⟩ | ⟨-, h⟩ <;> rw [h] <;> rfl
  simp only [exitGate]
  split
  · exact .keep ⟨by simp, by simp, by simp, by simp, by simp +contextual [pc], by simp⟩
      (.inr ⟨hr, by simp [pc, Pc.cont]⟩)
  · exact .exit ha ⟨by simp, by simp, by simp, by simp, by simp [pc], by simp +contextual [pc],
      by simp⟩

/-- **What one step does to the thread lists**, from a state whose current
thread is not in the last loop of `exit_thread`. -/
theorem listsMove_of_step {a : Act} (hd : s.pc s.cur ≠ .run .exitDead) (h : step s a = some s') :
    ListsMove s a s' := by
  cases a with
  | call c =>
    obtain ⟨-, hpc, h⟩ := step_call h
    have hr : (s.pc s.cur).isRun := by rw [hpc]; rfl
    cases c with
    | createThread stack cookie joinable =>
      simp only [call, Option.some.injEq] at h
      subst h
      cases joinable <;>
      exact .create cookie .user stack nofun hr ⟨by simp, by simp, by simp, by simp,
        by simp +contextual [pc], by simp⟩ (by simp [pc, Pc.cont])
    | exitThread =>
      simp only [call, Option.some.injEq] at h
      exact h ▸ exitGate_move (.inl ⟨rfl, hpc⟩)
    | _ =>
      obtain ⟨hk, hp⟩ := keeps_call hpc h (fun _ _ _ => nofun) nofun
      exact .keep hk (.inr ⟨hr, hp⟩)
  | run =>
    obtain ⟨-, k, hpc, h⟩ := step_run h
    have hr : (s.pc s.cur).isRun := by rw [hpc]; rfl
    cases k with
    | exitGate =>
      simp only [cont, Option.some.injEq] at h
      exact h ▸ exitGate_move (.inr ⟨rfl, hpc⟩)
    | bioSpawn a =>
      simp only [cont, bioSpawn, Option.some.injEq] at h
      subst h
      exact .create 0 .pumpStart none nofun hr ⟨by simp, by simp, by simp, by simp,
        by simp +contextual [pc], by simp⟩ (by simp [pc, Pc.cont])
    | exitDead => exact absurd hpc hd
    | _ =>
      obtain ⟨hk, hp⟩ := keeps_cont hpc h (fun e => hd (hpc ▸ e ▸ rfl)) nofun nofun
      exact .keep hk (.inr ⟨hr, hp⟩)
  | initDone res =>
    obtain ⟨-, num, c, hpc, rfl⟩ := step_initDone h
    have hr : (s.pc s.cur).isRun := by rw [hpc]; rfl
    have hf : Footprint _ s (s.devopenDone num c res) := footprint_devopenDone hpc
    obtain ⟨hk, hp⟩ := hf.keeps rfl rfl (by decide) (by simp [Writes.devopenDone])
    exact .keep hk (.inr ⟨hr, hp⟩)
  | poll cs =>
    obtain ⟨-, hpc, rfl⟩ := step_poll h
    obtain ⟨hk, hp⟩ := (footprint_poll hpc cs).keeps rfl rfl (by decide) (by simp [Writes.poll])
    exact .keep hk (.inr ⟨by rw [hpc]; rfl, hp⟩)
  | yield =>
    obtain ⟨-, k, hpc, hy, rfl⟩ := step_yield h
    refine .keep ⟨rfl, rfl, rfl, rfl, fun u hu => by simp [pc, hu], fun _ => rfl⟩
      (.inr ⟨by rw [hpc]; rfl, ?_⟩)
    simp only [pc, schedule_ctx, Function.update_same, Pc.cont]
    rintro rfl
    cases hy
  | pass =>
    obtain ⟨-, k, hpc, rfl⟩ := step_pass h
    exact .pass rfl rfl hpc
  | tick d =>
    obtain ⟨-, rfl⟩ := step_tick h
    exact .keep ⟨rfl, rfl, rfl, rfl, fun _ _ => rfl, fun _ => rfl⟩ (.inl rfl)
  | irq t =>
    obtain ⟨-, -, -, rfl⟩ := step_irq h
    exact .keep ⟨rfl, rfl, rfl, rfl, fun _ _ => rfl, fun _ => rfl⟩ (.inl rfl)

/-- No thread stands on the CPU in the last loop of `exit_thread`. -/
theorem ListInv.not_run_exitDead (hi : ListInv s) (t : Tid) : s.pc t ≠ .run .exitDead := by
  intro h
  by_cases htc : t = s.cur
  · subst htc; exact (hi.running h).2 rfl
  · simpa [h, Pc.isRun] using hi.parked t htc

/-- **The lists invariant is inductive.** -/
theorem ListInv.preserved (hi : ListInv s) {a : Act} (h : step s a = some s') : ListInv s' := by
  cases listsMove_of_step (hi.not_run_exitDead _) h with
  | keep hk hp => exact hi.keeps hk (hp.imp_right fun h => ⟨hi.running' h.1, h.2⟩)
  | create cookie k stack hk hr hk' hp =>
    exact (hi.createThread cookie k stack hk).keeps hk' (.inr ⟨by simp [hi.running' hr], hp⟩)
  | exit ha he =>
    refine hi.exits ?_ he
    rcases ha with ⟨-, h⟩ | ⟨-, h⟩ <;> exact (hi.running h).1
  | pass _ hs hk => exact hs ▸ hi.pass hk

theorem listInv_of_reachable (h : Reachable s) : ListInv s := by
  induction h with
  | init => exact listInv_init
  | step a _ hs ih => exact ih.preserved hs

/-- What one step does to the lists, as sched.c promises. -/
structure ListsStep (s : Sys) (a : Act) (s' : Sys) : Prop where
  /-- A thread enters the exited list only from the run list, through `exit_thread`. -/
  enters_exited : ∀ t, t ∉ s.exited → t ∈ s'.exited → t = s.cur ∧ t ∈ s.runq ∧
    (a = .call .exitThread ∧ s.pc s.cur = .run .user ∨ a = .run ∧ s.pc s.cur = .run .exitGate)
  /-- Only `schedule()` switches threads ... -/
  switches : s'.cur ≠ s.cur → a = .pass
  /-- ... and it selects, and switches to, only members of the run list. -/
  selects : a = .pass → ∀ n, s.selected = some n → n ∈ s.runq ∧ s'.cur = n
  /-- The reap loop reclaims only exited threads, never the thread that runs
  it nor a member of the run list ... -/
  reclaims : ∀ t, ¬ s.Freed t → s'.Freed t → t ∈ s.exited ∧ t ≠ s'.cur ∧ t ∉ s'.runq
  /-- ... and a pass that resumes a thread inside its own `schedule()` runs it:
  the exited list is emptied and each of its members is reclaimed, once. -/
  reaps : a = .pass → ∀ n k, s.selected = some n → s.pc n = .sched k →
    s'.exited = [] ∧ ∀ t ∈ s.exited, s'.log.count (.xfree t) = 1

/-- A pass that selects `n` runs `n` next. -/
theorem ListInv.pass_cur (hi : ListInv s) {n : Tid} (hsel : s.selected = some n) :
    s.pass.cur = n := by
  rw [pass_some hsel]; exact (resume_lists (s.handoff n) (hi.disjoint n (scan_mem hsel))).1

/-- A pass only takes threads off the exited list, and reclaims only exited
threads other than the one it runs, none on the run list. -/
theorem ListInv.pass_lists (hi : ListInv s) :
    (∀ t ∈ s.pass.exited, t ∈ s.exited) ∧
      ∀ t, ¬ s.Freed t → s.pass.Freed t → t ∈ s.exited ∧ t ≠ s.pass.cur ∧ t ∉ s.pass.runq := by
  cases hsel : s.selected with
  | none =>
    rw [pass_none hsel]
    exact ⟨fun t ht => ht, fun t hf hf' => absurd (by simpa [Freed] using hf') hf⟩
  | some n =>
    rw [pass_some hsel]
    have hn : n ∉ s.exited := hi.disjoint n (scan_mem hsel)
    obtain ⟨hc, hr, he, hf⟩ := resume_lists (s.handoff n) hn
    refine ⟨he, fun t hft hft' => ?_⟩
    have hx : ∀ t, (s.handoff n).log.count (.xfree t) = s.log.count (.xfree t) := by
      intro t; simp only [handoff_log]; split <;> simp
    have ht : t ∈ s.exited := (hf t hft').resolve_left fun h' =>
      hft (by simpa only [Freed, ← List.count_pos_iff, hx] using h')
    have htn : t ≠ n := fun e => hn (e ▸ ht)
    refine ⟨ht, hc ▸ htn, ?_⟩
    rw [hr, handoff_runq, List.mem_append, hi.runq_nodup.mem_erase_iff, List.mem_singleton]
    rintro (⟨-, h⟩ | h)
    exacts [hi.disjoint t h ht, htn h]

/-- A pass that resumes `n` inside its own `schedule()` runs the reap loop
there, in a thread that is not on the exited list: the list is emptied, and
each of its members, none of them reclaimed before, goes to `xfree` once. -/
theorem ListInv.pass_reaps (hi : ListInv s) {n : Tid} {k : Cont} (hsel : s.selected = some n)
    (hk : s.pc n = .sched k) : s.pass.exited = [] ∧ ∀ t ∈ s.exited, s.pass.log.count (.xfree t) = 1 := by
  have hn : n ∉ (s.handoff n).exited := hi.disjoint n (scan_mem hsel)
  have hx : ∀ t, (s.handoff n).log.count (.xfree t) = s.log.count (.xfree t) := by
    intro t; simp only [handoff_log]; split <;> simp
  have hr : s.pass = ((s.handoff n).reap n).setPc n (.run k) := by
    rw [pass_some hsel]; unfold Sys.resume; rw [show (s.handoff n).pc n = .sched k from hk]
  refine ⟨by simp [hr, reap_eq hn], fun t ht => ?_⟩
  have h0 : s.log.count (.xfree t) = 0 :=
    List.count_eq_zero.2 fun hf => hi.freed_exited t hf ht
  simp only [hr, reap_eq hn, setPc_log, List.count_append, hx, h0, count_xfree_reapEvents,
    handoff_exited, List.count_eq_one_of_mem hi.exited_nodup ht]

theorem ListInv.listsStep (hi : ListInv s) {a : Act} (h : step s a = some s') : ListsStep s a s' := by
  have hsel : a = .pass → ∀ n, s.selected = some n → n ∈ s.runq ∧ s'.cur = n := by
    rintro rfl n hn
    obtain ⟨-, -, -, rfl⟩ := step_pass h
    exact ⟨scan_mem hn, hi.pass_cur hn⟩
  have hreap : a = .pass → ∀ n k, s.selected = some n → s.pc n = .sched k →
      s'.exited = [] ∧ ∀ t ∈ s.exited, s'.log.count (.xfree t) = 1 := by
    rintro rfl n k hn hk
    obtain ⟨-, -, -, rfl⟩ := step_pass h
    exact hi.pass_reaps hn hk
  cases listsMove_of_step (hi.not_run_exitDead _) h with
  | keep hk _ =>
    exact ⟨fun t ht ht' => absurd (hk.exited ▸ ht') ht, fun hc => absurd hk.cur hc, hsel,
      fun t hf hf' => absurd ((hk.freed t).1 hf') hf, hreap⟩
  | create cookie k stack _ _ hk _ =>
    exact ⟨fun t ht ht' => absurd (hk.exited ▸ ht') ht, fun hc => absurd hk.cur hc, hsel,
      fun t hf hf' => absurd ((hk.freed t).1 hf') hf, hreap⟩
  | exit ha he =>
    refine ⟨fun t ht ht' => ?_, fun hc => absurd he.cur hc, hsel, fun t hf hf' => ?_, hreap⟩
    · rw [he.exited, List.mem_cons] at ht'
      obtain rfl := ht'.resolve_right ht
      rcases id ha with ⟨-, h⟩ | ⟨-, h⟩
      exacts [⟨rfl, (hi.running h).1, ha⟩, ⟨rfl, (hi.running h).1, ha⟩]
    · exact absurd (by simpa only [Freed, ← List.count_pos_iff, he.xfree] using hf') hf
  | pass ha hs _ =>
    subst ha hs
    obtain ⟨he, hf⟩ := hi.pass_lists
    exact ⟨fun t ht ht' => absurd (he t ht') ht, fun _ => rfl, hsel, hf, hreap⟩

/-- **The thread lists of sched.c.** In every reachable state the run list and
the exited list are duplicate-free and disjoint, every thread `create_thread`
returned is in exactly one of them or reclaimed, at most once, an exited
thread stays parked in `exit_thread`'s last loop and no thread runs the code
after it; and every step moves threads between the lists only as
`ListsStep` says, the reap loop of a thread resuming in `schedule()`
reclaiming every exited thread exactly once. -/
theorem thread_lists {s : Sys} (h : Reachable s) :
    ListInv s ∧ (∀ t, s.pc t ≠ .run .exitDead) ∧
      ∀ a s', step s a = some s' → ListsStep s a s' :=
  have hi := listInv_of_reachable h
  ⟨hi, hi.not_run_exitDead, fun _ _ => hi.listsStep⟩

theorem thread_lists_init :
    ListInv init ∧ (∀ t, init.pc t ≠ .run .exitDead) ∧
      ∀ a s', step init a = some s' → ListsStep init a s' :=
  thread_lists Reachable.init

end

end Sys
end RumpuserXen
