import RumpuserXen.Fairness

/-
  The CPU: the scheduler hook and the idle thread

  `switch_threads(prev, next)` calls the scheduler hook set by
  `set_sched_hook`, if one is set, with the cookies of the two threads, and
  `schedule()` calls `switch_threads` only when its loop selected another
  thread than the caller. The higher layer keeps its idea of the running
  lightweight process from these calls, and `init_mainlwp` gives the running
  thread its cookie. `init_sched` creates the idle thread (thread 0), whose
  `idle_thread_fn` blocks itself and calls `schedule()` for ever.

  What is proved:
    1. `hookCalls_step` — a step calls the hook exactly when it gives the
       CPU to another thread while a hook is set, with the cookies of the
       two threads; no other code calls it (`HookQuiet`);
    2. `hook_sees_switches` — over every run from a reachable state, the
       calls of the hook are the run's context switches made while a hook
       was set (`hookedSwitches`), in order;
    3. `hook_tracks_cookie` — over every run that calls neither
       `set_sched_hook` nor `init_mainlwp`, with a hook set, the calls of the
       hook chain from the cookie of the thread running at the start to the
       cookie of the thread running at the end (`HookChain`);
    4. `idle_thread_stays` — in every reachable state the idle thread is on
       the run list, in `idle_thread_fn`'s loop, and neither exited nor
       reclaimed.
-/

namespace RumpuserXen

/-- The arguments of a call of the scheduler hook. -/
def Event.hookArgs : Event → Option (Nat × Nat)
  | .hook p n => some (p, n)
  | _ => none

/-- The calls of the scheduler hook in a log: `(prev->cookie, next->cookie)`. -/
def hookCalls (l : List Event) : List (Nat × Nat) := l.filterMap Event.hookArgs

@[simp] theorem hookCalls_append (l m : List Event) : hookCalls (l ++ m) = hookCalls l ++ hookCalls m := by
  simp [hookCalls]

@[simp] theorem expire_cookie (now : Int) (x : Thread) : (expire now x).cookie = x.cookie := by
  unfold expire; split <;> rfl

theorem scan_cookie (now : Int) (l : List Tid) (th : Tid → Thread) (m : Int) (u : Tid) :
    ((scan now l th m).1 u).cookie = (th u).cookie := by
  rw [(scan_eq now l th m).2]
  split <;> simp +contextual

/-- The calls of the hook chain from cookie `a` to cookie `b`: each names as
`prev` the `next` of the call before it, the first names `a`, and the last
call's `next` is `b`. -/
def HookChain : Nat → List (Nat × Nat) → Nat → Prop
  | a, [], b => a = b
  | a, (p, n) :: l, b => p = a ∧ HookChain n l b

namespace Sys

/-- What the hook should see of a step from `s` to `s'`: the cookies of the
thread that held the CPU and of the thread that holds it after, if they
differ and a hook is set. -/
def switchSeen (s s' : Sys) : List (Nat × Nat) :=
  if s'.cur ≠ s.cur ∧ s.hook.isSome then [((s.th s.cur).cookie, (s.th s'.cur).cookie)] else []

/-- The context switches of a run made while a hook is set. -/
def hookedSwitches : Sys → List Act → List (Nat × Nat)
  | _, [] => []
  | s, a :: as =>
    match step s a with
    | some s' => s.switchSeen s' ++ s'.hookedSwitches as
    | none => []

section
variable {s s' : Sys}

/-! ## Code that leaves the hook alone -/

/-- A stretch of code that calls no hook, sets none, and keeps the cookie of
its thread. -/
structure HookQuiet (s s' : Sys) : Prop where
  calls : hookCalls s'.log = hookCalls s.log
  hook : s'.hook = s.hook
  cookie : (s'.th s.cur).cookie = (s.th s.cur).cookie

/-- Code that neither sets the hook nor writes its thread's cookie leaves the
hook alone: no code but a pass calls it. -/
theorem Footprint.hookQuiet {w : Writes} (hf : Footprint w s s') (hc : s.cur ≠ s.nextTid)
    (hh : w.hook = false) (hk : w.cookie = false) (he : .hook ∉ w.emits) : HookQuiet s s' :=
  ⟨hf.filterMap_log fun e hs => by cases e <;> first | exact he | simp [Event.hookArgs] at hs,
    hf.hook hh, hf.cookie hc hk⟩

/-- Every step but a pass, `set_sched_hook` and `init_mainlwp` leaves the hook alone. -/
theorem hookQuiet_of_step {a : Act} (hc : s.cur ≠ s.nextTid) (ha : a ≠ .pass)
    (hf : ∀ f, a ≠ .call (.setSchedHook f)) (hk : ∀ k, a ≠ .call (.initMainlwp k))
    (h : step s a = some s') : HookQuiet s s' := by
  cases a with
  | call c =>
    obtain ⟨-, hpc, h⟩ := step_call h
    refine (footprint_call hpc h).hookQuiet hc ?_ ?_ ?_ <;> cases c <;> simp_all
  | run =>
    obtain ⟨-, k, hpc, h⟩ := step_run h
    refine (footprint_cont hpc h).hookQuiet hc ?_ ?_ ?_ <;> cases k <;> simp
  | initDone res =>
    obtain ⟨-, num, c, hpc, rfl⟩ := step_initDone h
    exact (footprint_devopenDone hpc).hookQuiet hc rfl rfl (by decide)
  | poll cs => obtain ⟨-, hpc, rfl⟩ := step_poll h; exact (footprint_poll hpc cs).hookQuiet hc rfl rfl (by decide)
  | yield => obtain ⟨-, k, -, -, rfl⟩ := step_yield h; exact ⟨rfl, rfl, rfl⟩
  | pass => exact absurd rfl ha
  | tick d => obtain ⟨-, rfl⟩ := step_tick h; exact ⟨rfl, rfl, rfl⟩
  | irq t => obtain ⟨-, -, -, rfl⟩ := step_irq h; exact ⟨rfl, rfl, by simp +contextual⟩

/-- `set_sched_hook` and `init_mainlwp` call no hook either. -/
theorem hookCalls_of_step {a : Act} (hc : s.cur ≠ s.nextTid) (ha : a ≠ .pass) (h : step s a = some s') :
    hookCalls s'.log = hookCalls s.log := by
  by_cases hx : (∃ f, a = .call (.setSchedHook f)) ∨ ∃ k, a = .call (.initMainlwp k)
  · rcases hx with ⟨f, rfl⟩ | ⟨k, rfl⟩ <;> obtain ⟨-, -, h⟩ := step_call h <;>
      simp only [call, Option.some.injEq] at h <;> subst h <;> rfl
  · push_neg at hx
    exact (hookQuiet_of_step hc ha hx.1 hx.2 h).calls

/-! ## A pass -/

theorem hookCalls_foldl_reapOne (p : Tid) : ∀ (l : List Tid) (s : Sys),
    hookCalls (l.foldl (fun s t => s.reapOne p t) s).log = hookCalls s.log
  | [], _ => rfl
  | t :: l, s => by
    rw [List.foldl_cons, hookCalls_foldl_reapOne p l]
    simp only [reapOne]
    split
    · split <;> simp [hookCalls, Event.hookArgs]
    · rfl

/-- The thread a pass resumes calls no hook, and touches no descriptor. -/
theorem resume_hook (s : Sys) (n : Tid) : hookCalls (s.resume n).log = hookCalls s.log ∧
    (s.resume n).cur = s.cur ∧ (s.resume n).th = s.th ∧ (s.resume n).hook = s.hook := by
  unfold resume
  split
  · obtain ⟨e, ev, hr, -⟩ := foldl_reapOne_frame n s.exited s
    exact ⟨hookCalls_foldl_reapOne n s.exited s, by rw [reap, hr]; exact ⟨rfl, rfl, rfl⟩⟩
  · exact ⟨rfl, rfl, rfl, rfl⟩
  · exact ⟨rfl, rfl, rfl, rfl⟩

/-- **A pass calls the hook exactly on a switch**, with the cookies of the two
threads, and leaves every cookie and the hook as they were. -/
theorem hookCalls_pass (s : Sys) : hookCalls s.pass.log = hookCalls s.log ++ s.switchSeen s.pass ∧
    (s.pass.th s.pass.cur).cookie = (s.th s.pass.cur).cookie ∧ s.pass.hook = s.hook := by
  cases hs : s.selected with
  | none =>
    rw [pass_none hs]
    simp [switchSeen, hookCalls, Event.hookArgs]
  | some n =>
    obtain ⟨h1, h2, h3, h4⟩ := resume_hook (s.handoff n) n
    rw [pass_some hs]
    simp only [switchSeen, h1, h2, h3, h4, handoff_log, handoff_cur, handoff_th, handoff_hook, hookCalls_append,
      scan_cookie, and_true]
    by_cases hn : s.cur = n
    · simp [hn, hookCalls]
    · cases hh : s.hook <;> simp [hn, Ne.symm hn, hh, hookCalls, Event.hookArgs]

/-- **A step calls the hook exactly on a switch while a hook is set**, with
the cookies of the thread that held the CPU and of the one that gets it. -/
theorem hookCalls_step {a : Act} (hc : s.cur ≠ s.nextTid) (h : step s a = some s') :
    hookCalls s'.log = hookCalls s.log ++ s.switchSeen s' := by
  by_cases ha : a = .pass
  · subst ha
    obtain ⟨-, -, -, rfl⟩ := step_pass h
    exact (hookCalls_pass s).1
  · rw [switchSeen, if_neg fun h' => h'.1 (segFrame_of_step hc ha h).cur, List.append_nil]
    exact hookCalls_of_step hc ha h

/-- A step that is neither `set_sched_hook` nor `init_mainlwp` keeps the hook,
and the thread on the CPU after it has the cookie it had before. -/
theorem hook_cookie_step {a : Act} (hc : s.cur ≠ s.nextTid) (hf : ∀ f, a ≠ .call (.setSchedHook f))
    (hk : ∀ k, a ≠ .call (.initMainlwp k)) (h : step s a = some s') :
    s'.hook = s.hook ∧ (s'.th s'.cur).cookie = (s.th s'.cur).cookie := by
  by_cases ha : a = .pass
  · subst ha
    obtain ⟨-, -, -, rfl⟩ := step_pass h
    exact ⟨(hookCalls_pass s).2.2, (hookCalls_pass s).2.1⟩
  · have hq := hookQuiet_of_step hc ha hf hk h
    rw [(segFrame_of_step hc ha h).cur]
    exact ⟨hq.hook, hq.cookie⟩

/-! ## Whole runs -/

/-- **The hook sees the context switches.** Over every run from a reachable
state, the calls of the scheduler hook are the run's context switches made
while a hook was set, in order, each with the cookies of the thread that
held the CPU and of the thread that got it. -/
theorem hook_sees_switches : ∀ {as : List Act} {s s' : Sys}, Reachable s → run s as = some s' →
    hookCalls s'.log = hookCalls s.log ++ s.hookedSwitches as
  | [], s, s', _, h => by
    simp only [run, Option.some.injEq] at h
    subst h; simp [hookedSwitches]
  | a :: as, s, s', hr, h => by
    obtain ⟨s1, h1, h2⟩ := run_cons_eq_some.1 h
    rw [hook_sees_switches (.step a hr h1) h2, hookCalls_step (listInv_of_reachable hr).cur_lt.ne h1]
    simp [hookedSwitches, h1]

/-- From boot, the main thread sets a hook and takes the cookie 9, creates a
thread with the cookie 4 and blocks; the new thread wakes the main thread
and blocks. The hook sees the two switches. -/
theorem hook_sees_switches_boot :
    Reachable ((run init [.run, .pass, .call (.setSchedHook (some 5)), .call (.initMainlwp 9)]).getD init) ∧
    run ((run init [.run, .pass, .call (.setSchedHook (some 5)), .call (.initMainlwp 9)]).getD init)
        [.call (.createThread none 4 false), .call .block, .call .schedule, .pass, .call (.wake 1), .call .block,
          .call .schedule, .pass] =
      some ((run ((run init [.run, .pass, .call (.setSchedHook (some 5)), .call (.initMainlwp 9)]).getD init)
        [.call (.createThread none 4 false), .call .block, .call .schedule, .pass, .call (.wake 1), .call .block,
          .call .schedule, .pass]).getD init) ∧
    hookCalls ((run ((run init [.run, .pass, .call (.setSchedHook (some 5)), .call (.initMainlwp 9)]).getD init)
        [.call (.createThread none 4 false), .call .block, .call .schedule, .pass, .call (.wake 1), .call .block,
          .call .schedule, .pass]).getD init).log =
      hookCalls ((run init [.run, .pass, .call (.setSchedHook (some 5)), .call (.initMainlwp 9)]).getD init).log ++
        ((run init [.run, .pass, .call (.setSchedHook (some 5)), .call (.initMainlwp 9)]).getD init).hookedSwitches
          [.call (.createThread none 4 false), .call .block, .call .schedule, .pass, .call (.wake 1), .call .block,
            .call .schedule, .pass] ∧
    ((run init [.run, .pass, .call (.setSchedHook (some 5)), .call (.initMainlwp 9)]).getD init).hookedSwitches
        [.call (.createThread none 4 false), .call .block, .call .schedule, .pass, .call (.wake 1), .call .block,
          .call .schedule, .pass] = [(9, 4), (4, 9)] :=
  have hr := eq_some_getD (o := run ((run init [.run, .pass, .call (.setSchedHook (some 5)),
    .call (.initMainlwp 9)]).getD init) [.call (.createThread none 4 false), .call .block, .call .schedule, .pass,
      .call (.wake 1), .call .block, .call .schedule, .pass]) (by decide)
  ⟨reachable_getD _, hr, hook_sees_switches (reachable_getD _) hr, by decide⟩

/-- **The hook keeps the higher layer's idea of the running thread.** Over
every run from a reachable state with a hook set, in which no thread calls
`set_sched_hook` or `init_mainlwp`, the calls of the hook chain: the first
names as `prev` the cookie of the thread that held the CPU at the start,
each names as `prev` the `next` of the call before, and the last call's
`next` is the cookie of the thread that holds the CPU at the end. -/
theorem hook_tracks_cookie : ∀ {as : List Act} {s s' : Sys}, Reachable s → s.hook.isSome →
    (∀ a ∈ as, (∀ f, a ≠ .call (.setSchedHook f)) ∧ ∀ k, a ≠ .call (.initMainlwp k)) →
    run s as = some s' →
    ∃ w, hookCalls s'.log = hookCalls s.log ++ w ∧ HookChain (s.th s.cur).cookie w (s'.th s'.cur).cookie
  | [], s, s', _, _, _, h => by
    simp only [run, Option.some.injEq] at h
    subst h
    exact ⟨[], by simp, rfl⟩
  | a :: as, s, s', hr, hh, has, h => by
    obtain ⟨s1, h1, h2⟩ := run_cons_eq_some.1 h
    have hc := (listInv_of_reachable hr).cur_lt.ne
    obtain ⟨hk1, hk2⟩ := hook_cookie_step hc (has a (.head _)).1 (has a (.head _)).2 h1
    obtain ⟨w, hw, hch⟩ := hook_tracks_cookie (.step a hr h1) (by rw [hk1]; exact hh)
      (fun b hb => has b (.tail _ hb)) h2
    refine ⟨s.switchSeen s1 ++ w, by rw [hw, hookCalls_step hc h1, List.append_assoc], ?_⟩
    rw [hk2] at hch
    by_cases hcur : s1.cur = s.cur
    · rw [hcur] at hch
      simpa [switchSeen, hcur] using hch
    · simpa [switchSeen, hcur, hh, HookChain] using hch

/-- The run above, from the state where the hook is set and the main thread
has its cookie: the hook calls chain from 9 back to 9. -/
theorem hook_tracks_cookie_boot :
    ∃ w, hookCalls ((run ((run init [.run, .pass, .call (.setSchedHook (some 5)), .call (.initMainlwp 9)]).getD init)
        [.call (.createThread none 4 false), .call .block, .call .schedule, .pass, .call (.wake 1), .call .block,
          .call .schedule, .pass]).getD init).log =
      hookCalls ((run init [.run, .pass, .call (.setSchedHook (some 5)), .call (.initMainlwp 9)]).getD init).log ++ w ∧
      HookChain 9 w 9 :=
  hook_tracks_cookie (reachable_getD _) (by decide) (by simp) (eq_some_getD (by decide))

/-! ## The idle thread -/

/-- The idle thread is on the run list, on the CPU or inside `schedule()` in
its loop. -/
structure IdleOk (s : Sys) : Prop where
  runq : 0 ∈ s.runq
  pc : s.pc 0 = .run .idle ∨ s.pc 0 = .sched .idle

theorem IdleOk.cont (hi : IdleOk s) : (s.pc 0).cont = .idle := by
  rcases hi.pc with h | h <;> rw [h] <;> rfl

/-- No step takes the idle thread off the run list: `exit_thread` is called
from the rump kernel's code only, never from `idle_thread_fn`. -/
theorem IdleOk.runq_step (hi : IdleOk s) (hl : ListInv s) {a : Act} (h : step s a = some s') :
    0 ∈ s'.runq := by
  cases listsMove_of_step (hl.not_run_exitDead _) h with
  | keep hk _ => exact hk.runq ▸ hi.runq
  | create _ _ _ _ _ hk _ => simp [hk.runq, hi.runq]
  | exit ha he =>
    have hc : s.cur ≠ 0 := by
      rintro hc
      rcases ha with ⟨-, hp⟩ | ⟨-, hp⟩ <;> rcases hi.pc with h0 | h0 <;> rw [← hc, hp] at h0 <;> cases h0
    rw [he.runq]
    exact (List.mem_erase_of_ne (Ne.symm hc)).2 hi.runq
  | pass _ hp _ =>
    subst hp
    cases hs : s.selected with
    | none => rw [pass_none hs]; exact hi.runq
    | some n =>
      rw [pass_runq hs]
      by_cases hn : n = 0
      · simp [hn]
      · exact List.mem_append_left _ ((List.mem_erase_of_ne (Ne.symm hn)).2 hi.runq)

/-- On the CPU, the idle thread blocks itself and enters `schedule()`; no
other step moves it. -/
theorem IdleOk.pc_step (hi : IdleOk s) (hl : ListInv s) {a : Act} (h : step s a = some s') :
    s'.pc 0 = .run .idle ∨ s'.pc 0 = .sched .idle := by
  by_cases ha : a = .pass
  · subst ha
    obtain ⟨-, -, -, rfl⟩ := step_pass h
    by_cases hs : s.selected = some 0
    · exact .inl (by rw [pass_pc_selected hs, hi.cont])
    · simp only [Sys.pc, pass_ctx s hs]; exact hi.pc
  by_cases hc : s.cur = 0
  · have hp : s.pc s.cur = .run .idle ∨ s.pc s.cur = .sched .idle := hc ▸ hi.pc
    rw [← hc]
    cases a with
    | call c => rcases hp with h0 | h0 <;> cases (step_call h).2.1.symm.trans h0
    | run =>
      obtain ⟨-, k, hk, h⟩ := step_run h
      rcases hp with h0 | h0 <;> rw [h0] at hk <;> cases hk
      simp only [Sys.cont, Option.some.injEq] at h
      subst h
      simp [Sys.pc]
    | initDone res => obtain ⟨-, num, c, hk, -⟩ := step_initDone h; rcases hp with h0 | h0 <;> rw [h0] at hk <;> cases hk
    | poll cs => obtain ⟨-, hk, -⟩ := step_poll h; rcases hp with h0 | h0 <;> rw [h0] at hk <;> cases hk
    | yield =>
      obtain ⟨-, k, hk, hy, -⟩ := step_yield h
      rcases hp with h0 | h0 <;> rw [h0] at hk <;> cases hk
      cases hy
    | pass => exact absurd rfl ha
    | tick d => obtain ⟨-, rfl⟩ := step_tick h; exact hp
    | irq t => obtain ⟨-, -, -, rfl⟩ := step_irq h; exact hp
  · have h0 : (0 : Tid) ≠ s.nextTid := (hl.runq_lt 0 hi.runq).ne
    simp only [Sys.pc, (segFrame_of_step hl.cur_lt.ne ha h).ctx 0 (Ne.symm hc) h0]
    exact hi.pc

theorem idleOk_of_reachable (h : Reachable s) : IdleOk s := by
  induction h with
  | init => exact ⟨by decide, .inl rfl⟩
  | step a hs hst ih =>
    have hl := listInv_of_reachable hs
    exact ⟨ih.runq_step hl hst, ih.pc_step hl hst⟩

/-- **The idle thread is never lost.** In every reachable state the idle
thread is on the run list, on the CPU in `idle_thread_fn`'s loop or parked in
that loop's `schedule()`, and it has neither exited nor been reclaimed. -/
theorem idle_thread_stays (h : Reachable s) :
    0 ∈ s.runq ∧ 0 ∉ s.exited ∧ ¬s.Freed 0 ∧ (s.pc 0 = .run .idle ∨ s.pc 0 = .sched .idle) := by
  have hi := idleOk_of_reachable h
  have hl := listInv_of_reachable h
  exact ⟨hi.runq, hl.disjoint 0 hi.runq, fun hf => hl.freed_runq 0 hf hi.runq, hi.pc⟩

theorem idle_thread_stays_init :
    0 ∈ init.runq ∧ 0 ∉ init.exited ∧ ¬init.Freed 0 ∧ (init.pc 0 = .run .idle ∨ init.pc 0 = .sched .idle) :=
  idle_thread_stays .init

end

end Sys
end RumpuserXen
