import RumpuserXen.Sleep
import RumpuserXen.Fairness
import RumpuserXen.Requests

/-
  Timed sleep

  `dosleep(d)` stores the deadline `d`, clears `THREAD_TIMEDOUT` and
  `RUNNABLE_FLAG`, and calls `schedule()`. The thread gets the CPU again only
  once it is runnable: a pass of the selection loop that reaches it with
  `d <= now` sets `THREAD_TIMEDOUT` and wakes it (the timeout branch), or
  some other code calls `wake` on it first. `dosleep` returns whether
  `THREAD_TIMEDOUT` is set, and clears it.

  What is proved:
    1. `selection_loop` — one pass of the loop over any run list, any
       descriptors and any clock: it selects the first due thread, writes its
       descriptor only, through the timeout branch, and moves it to the tail;
       or it selects none, changes nothing, and calls `block_domain` with the
       earliest deadline on the list, capped at ten seconds, which is later
       than `now`;
    2. `Sleeping.along` — along every run during which a thread stays inside
       `dosleep(d)`, its run flag and `THREAD_TIMEDOUT` say which step first
       made it runnable (`firstWake`): none yet, the timeout branch of a
       pass, or a wake;
    3. `dosleep_result` — `msleep` and `absmsleep` return only after that
       step, 1 if it was the timeout branch and 0 if it was a wake, with
       `THREAD_TIMEDOUT` clear;
    4. `absmsleep_zero_never_expires` — the deadline 0 is the scan's "no
       deadline": `absmsleep(0)` is never timed out, though its deadline has
       passed, and returns 0, after a wake;
    5. `relwall_deadline` — `RUMPUSER_CLOCK_RELWALL` sleeps until
       `now + (msec mod 2^32) ms`, `msec = sec*1000 + nsec/10^6`, which is
       the deadline asked for exactly when `msec` fits in 32 bits;
    6. `msleep_timeout_not_early` — `msleep` and `absmsleep` return 1 only
       once the clock has reached their deadline, which is not 0
       (`now_step`: the clock moves only by a tick, forward);
    7. `wake_kept` — a runnable thread stays runnable along every run until
       it is on the CPU: no code clears another thread's `RUNNABLE_FLAG`
       (`runnable_step`), so a wake is never lost before the thread's
       `schedule()` returns;
    8. `runnable_selected_within` — whatever the other threads do, a
       runnable thread of the run list that is not on the CPU is selected
       within `p + 1` passes, `p` the threads ahead of it, none of them twice
       (`eligible_until_selected`, with the round robin of `Fairness`).
-/

namespace RumpuserXen

/-- `a`, if it is a step that took a thread from `x`, not runnable, to `x'`, runnable. -/
def wokenBy (x x' : Thread) (a : Act) : Option Act := if !x.isRunnable && x'.isRunnable then some a else none

namespace Sys

/-! ## One pass of the selection loop -/

/-- **One pass of the selection loop of `schedule()`**, from any state: it
selects the first thread of the run list that is runnable or past its
deadline; if that thread was not runnable it gets `THREAD_TIMEDOUT` and
`RUNNABLE_FLAG` and loses its deadline, and no other descriptor changes; it
moves to the tail of the run list. If no thread is due, the pass changes
nothing but calls `block_domain` with the earliest deadline of a sleeper on
the list, or `now + 10 s` if that is earlier, a time after `now`. -/
theorem selection_loop (s : Sys) :
    s.selected = s.runq.find? (fun t => (s.th t).due s.now) ∧
    (∀ n, s.selected = some n →
      s.pass.th n = (if (s.th n).isRunnable then s.th n
        else { s.th n with flags := (s.th n).flags ||| threadTimedout ||| runnableFlag, wakeupTime := 0 }) ∧
      (∀ u, u ≠ n → s.pass.th u = s.th u) ∧
      ∃ pre post, s.runq = pre ++ n :: post ∧ (∀ t ∈ pre, (s.th t).due s.now = false) ∧
        s.pass.runq = pre ++ post ++ [n]) ∧
    (s.selected = none → ∃ m, s.pass = s.emit (.blockDomain m) ∧ s.now < m ∧ m ≤ s.now + seconds 10 ∧
      (∀ t ∈ s.runq, (s.th t).isRunnable = false → (s.th t).wakeupTime ≠ 0 → m ≤ (s.th t).wakeupTime) ∧
      (m = s.now + seconds 10 ∨ ∃ t ∈ s.runq, (s.th t).isRunnable = false ∧ (s.th t).wakeupTime ≠ 0 ∧
        m = (s.th t).wakeupTime)) := by
  refine ⟨scan_sel .., fun n hn => ⟨?_, fun u hu => ?_, ?_⟩, fun hn => ?_⟩
  · rw [pass_th, scan_th_some hn, Function.update_same, expire_of_due (scan_due hn)]
  · rw [pass_th, scan_th_ne fun h => hu (Option.some.inj (h.symm.trans hn))]
  · obtain ⟨pre, post, hl, hpre, he⟩ := erase_of_find? (by rw [← scan_sel]; exact hn)
    exact ⟨pre, post, hl, hpre, by rw [pass_runq hn, he]⟩
  · have hnd : ∀ t ∈ s.runq, (s.th t).due s.now = false := by
      simpa [selected, scan_sel, List.find?_eq_none] using hn
    obtain ⟨hle, hall, hone⟩ := scan_deadline s.now s.th s.runq _ hn
    refine ⟨_, pass_none hn, ?_, hle, hall, hone⟩
    rcases hone with he | ⟨t, ht, hr, hw, he⟩
    · rw [he, seconds]; omega
    · have := hnd t ht
      simp only [Thread.due, hr, hw, Bool.false_or, Bool.and_eq_false_iff, bne_eq_false_iff_eq, false_or,
        decide_eq_false_iff_not] at this
      omega

/-! ## The clock -/

section
variable {s s' : Sys}

theorem now_pass (s : Sys) : s.pass.now = s.now := by
  cases hs : s.selected with
  | none => rw [pass_none hs]; rfl
  | some n => obtain ⟨e, l, h, -⟩ := pass_some_eq hs; rw [h]; rfl

/-- `NOW()` moves only by a tick, forward. -/
theorem now_step {a : Act} (h : step s a = some s') :
    s'.now = s.now ∨ ∃ d : Nat, a = .tick d ∧ s'.now = s.now + d := by
  cases a with
  | call c => obtain ⟨-, hpc, h⟩ := step_call h; exact .inl (footprint_call hpc h).now
  | run => obtain ⟨-, k, hpc, h⟩ := step_run h; exact .inl (footprint_cont hpc h).now
  | initDone res => obtain ⟨-, num, c, hpc, rfl⟩ := step_initDone h; exact .inl (footprint_devopenDone hpc).now
  | poll cs => obtain ⟨-, hpc, rfl⟩ := step_poll h; exact .inl (footprint_poll hpc cs).now
  | yield => obtain ⟨-, k, -, -, rfl⟩ := step_yield h; exact .inl rfl
  | pass => obtain ⟨-, k, -, rfl⟩ := step_pass h; exact .inl (now_pass s)
  | tick d => obtain ⟨-, rfl⟩ := step_tick h; exact .inr ⟨d, rfl, rfl⟩
  | irq t => obtain ⟨-, -, -, rfl⟩ := step_irq h; exact .inl rfl

theorem now_le_step {a : Act} (h : step s a = some s') : s.now ≤ s'.now := by
  rcases now_step h with he | ⟨d, -, he⟩
  · exact he ▸ le_rfl
  · rw [he]; omega

end

/-! ## A thread inside `dosleep` -/

/-- The states a run passes through, after each of its steps. -/
def states : Sys → List Act → List Sys
  | _, [] => []
  | s, a :: as =>
    match step s a with
    | none => []
    | some s' => s' :: states s' as

/-- The first step of a run that makes thread `t` runnable. -/
def firstWake : Sys → Tid → List Act → Option Act
  | _, _, [] => none
  | s, t, a :: as =>
    match step s a with
    | none => none
    | some s' => (wokenBy (s.th t) (s'.th t) a).or (firstWake s' t as)

section
variable {s s' : Sys} {t : Tid} {c : SleepCaller} {d : Int} {w : Option Act} {a : Act}

theorem states_cons {as : List Act} (h : step s a = some s') : s.states (a :: as) = s' :: s'.states as := by
  simp [states, h]

theorem firstWake_cons {as : List Act} (h : step s a = some s') :
    s.firstWake t (a :: as) = (wokenBy (s.th t) (s'.th t) a).or (s'.firstWake t as) := by
  simp [firstWake, h]

/-- **A step, seen from a thread inside `dosleep`**: its return to the caller,
which only the thread itself runs, once a pass gave it the CPU; the pass that
selects it, through the timeout branch; or a step that leaves it where it
stands and touches its descriptor at most as other code may, by `wake`. -/
theorem sleeper_step (hc : (s.pc t).cont = .sleep c) (hl : ListInv s) (hu : Unborn s)
    (h : step s a = some s') :
    (a = .run ∧ s.cur = t ∧ s.pc t = .run (.sleep c) ∧ s' = s.sleepReturn c) ∨
    (a = .pass ∧ s.selected = some t ∧ s'.pc t = .run (.sleep c) ∧ s'.th t = expire s.now (s.th t)) ∨
    (s'.pc t = s.pc t ∧ (a ≠ .pass ∧ Touch (s.th t) (s'.th t) ∨ s'.th t = s.th t)) := by
  by_cases ha : a = .pass
  · subst ha
    obtain ⟨-, -, -, rfl⟩ := step_pass h
    by_cases hn : s.selected = some t
    · exact .inr (.inl ⟨rfl, hn, by rw [pass_pc_selected hn, hc],
        by rw [pass_th, scan_th_some hn, Function.update_same]⟩)
    · exact .inr (.inr ⟨by rw [pc, pass_ctx s hn]; rfl, .inr (by rw [pass_th, scan_th_ne hn])⟩)
  have htn : t ≠ s.nextTid := fun he => by rw [pc, he, hu _ le_rfl] at hc; cases hc
  by_cases ht : t = s.cur
  · subst ht
    cases a with
    | call c' => obtain ⟨-, hpc, -⟩ := step_call h; rw [hpc] at hc; cases hc
    | run =>
      obtain ⟨-, k, hpc, h⟩ := step_run h
      rw [hpc, Pc.cont_run] at hc
      subst hc
      exact .inl ⟨rfl, rfl, hpc, by simpa [cont] using h.symm⟩
    | initDone res => obtain ⟨-, num, c', hpc, -⟩ := step_initDone h; rw [hpc] at hc; cases hc
    | poll cs => obtain ⟨-, hpc, -⟩ := step_poll h; rw [hpc] at hc; cases hc
    | yield =>
      obtain ⟨-, k, hpc, hy, -⟩ := step_yield h
      rw [hpc, Pc.cont_run] at hc
      subst hc; cases hy
    | pass => exact absurd rfl ha
    | tick n => obtain ⟨-, rfl⟩ := step_tick h; exact .inr (.inr ⟨rfl, .inr rfl⟩)
    | irq u => obtain ⟨-, -, -, rfl⟩ := step_irq h; exact .inr (.inr ⟨rfl, .inl ⟨ha, by simp +contextual⟩⟩)
  · have hf := segFrame_of_step (Nat.ne_of_lt hl.cur_lt) ha h
    exact .inr (.inr ⟨by rw [pc, hf.ctx t ht htn]; rfl, .inl ⟨ha, hf.th t ht htn⟩⟩)

end

end Sys

/-- What a thread inside `dosleep(d)` carries, given the step `w` that first
made it runnable since the call: none yet, and it is not runnable with the
deadline `d`; or it is runnable, with `THREAD_TIMEDOUT` set exactly when that
step was a pass, through the timeout branch, which needs `d ≠ 0`. -/
def SleepPhase (d : Int) (x : Thread) : Option Act → Prop
  | none => x.isRunnable = false ∧ x.wakeupTime = d ∧ hasFlag x.flags threadTimedout = false
  | some a => x.isRunnable = true ∧ hasFlag x.flags threadTimedout = decide (a = .pass) ∧ (a = .pass → d ≠ 0)

section
variable {d : Int} {x x' : Thread} {w : Option Act} {a : Act}

@[simp] theorem sleepPhase_none : SleepPhase d x none ↔
    x.isRunnable = false ∧ x.wakeupTime = d ∧ hasFlag x.flags threadTimedout = false := Iff.rfl

@[simp] theorem sleepPhase_some : SleepPhase d x (some a) ↔
    x.isRunnable = true ∧ hasFlag x.flags threadTimedout = decide (a = .pass) ∧ (a = .pass → d ≠ 0) :=
  Iff.rfl

@[simp] theorem wokenBy_self : wokenBy x x a = none := by
  cases h : x.isRunnable <;> simp [wokenBy, h]

/-- `wake`, from any code but a pass, wakes a sleeper with `THREAD_TIMEDOUT` clear. -/
theorem SleepPhase.touch (hp : SleepPhase d x w) (ht : Touch x x') (ha : a ≠ .pass) :
    SleepPhase d x' (w.or (wokenBy x x' a)) := by
  cases w with
  | none =>
    obtain ⟨hr, hw, hto⟩ := hp
    cases ht <;> simp_all [wokenBy, Thread.isRunnable]
  | some b =>
    obtain ⟨hr, hto, hd⟩ := hp
    cases ht <;> simp_all [wokenBy, Thread.isRunnable]

/-- The timeout branch wakes a sleeper past a deadline `d ≠ 0`, with `THREAD_TIMEDOUT` set. -/
theorem SleepPhase.expire {now : Int} (hp : SleepPhase d x w) :
    SleepPhase d (expire now x) (w.or (wokenBy x (expire now x) .pass)) := by
  cases w with
  | none =>
    obtain ⟨hr, hw, hto⟩ := hp
    unfold RumpuserXen.expire
    split
    · next hc =>
      simp only [hr, Bool.not_false, Bool.true_and, Bool.and_eq_true, bne_iff_ne, decide_eq_true_eq] at hc
      simp_all [wokenBy, Thread.isRunnable]
    · simp_all
  | some b => simp_all [expire_of_isRunnable hp.1]

end

namespace Sys

/-- Thread `t` stands inside `dosleep(d)`, called by `c`, and `w` is the step
that first made it runnable since the call. -/
structure Sleeping (s : Sys) (t : Tid) (c : SleepCaller) (d : Int) (w : Option Act) : Prop where
  cont : (s.pc t).cont = .sleep c
  phase : SleepPhase d (s.th t) w
  /-- Until that step, it is parked in the `schedule()` of `dosleep`. -/
  parked : w = none → s.pc t = .sched (.sleep c)

section
variable {s s' s2 : Sys} {t : Tid} {c : SleepCaller} {d : Int} {w : Option Act} {a : Act}

/-- `dosleep(d)` parks the current thread with the deadline `d`. -/
theorem dosleep_sleeping : (s.dosleep d c).Sleeping s.cur c d none :=
  ⟨by simp [dosleep, pc], by simp [dosleep, Thread.isRunnable], fun _ => by simp [dosleep, pc]⟩

theorem Sleeping.next (hs : s.Sleeping t c d w) (hl : ListInv s) (hu : Unborn s) (h : step s a = some s')
    (hin : (s'.pc t).cont = .sleep c) : s'.Sleeping t c d (w.or (wokenBy (s.th t) (s'.th t) a)) := by
  rcases sleeper_step hs.cont hl hu h with ⟨rfl, rfl, -, rfl⟩ | ⟨rfl, hn, hpc, hth⟩ | ⟨hpc, hth⟩
  · cases c <;> simp [sleepReturn, pc] at hin
  · refine ⟨hin, by rw [hth]; exact hs.phase.expire, fun hw => ?_⟩
    have hr : (expire s.now (s.th t)).isRunnable = true := by rw [expire_isRunnable]; exact scan_due hn
    cases w
    · simp [wokenBy, hs.phase.1, hr, hth] at hw
    · simp at hw
  · refine ⟨hin, ?_, fun hw => hpc ▸ hs.parked (Option.or_eq_none.1 hw).1⟩
    rcases hth with ⟨ha, ht⟩ | hth
    · exact hs.phase.touch ht ha
    · rw [hth, wokenBy_self, Option.or_none]; exact hs.phase

/-- The step after which a thread inside `dosleep` is no longer there is its
own return, once something made it runnable. -/
theorem Sleeping.leave (hs : s.Sleeping t c d w) (hl : ListInv s) (hu : Unborn s) (h : step s a = some s')
    (hout : (s'.pc t).cont ≠ .sleep c) : ∃ b, w = some b ∧ a = .run ∧ s.cur = t ∧ s' = s.sleepReturn c := by
  rcases sleeper_step hs.cont hl hu h with ⟨ha, hc, hpc, rfl⟩ | ⟨-, -, hpc, -⟩ | ⟨hpc, -⟩
  · cases w with
    | none => rw [hs.parked rfl] at hpc; cases hpc
    | some b => exact ⟨b, rfl, ha, hc, rfl⟩
  · simp [hpc] at hout
  · exact absurd (hpc ▸ hs.cont) hout

/-- **Along every run during which a thread stays inside `dosleep(d)`**, its
run flag and `THREAD_TIMEDOUT` are as the first step that made it runnable
says. -/
theorem Sleeping.along : ∀ {as : List Act} {s s2 : Sys} {w : Option Act}, Reachable s →
    s.Sleeping t c d w → run s as = some s2 → (∀ p ∈ s.states as, (p.pc t).cont = .sleep c) →
    s2.Sleeping t c d (w.or (s.firstWake t as))
  | [], s, s2, w, _, hs, h, _ => by
    simp only [run, Option.some.injEq] at h
    subst h
    simpa [firstWake] using hs
  | a :: as, s, s2, w, hr, hs, h, hin => by
    cases ha : step s a with
    | none => simp [run, ha] at h
    | some s' =>
      simp only [run, ha, Option.some_bind] at h
      simp only [states_cons ha, List.mem_cons, forall_eq_or_imp] at hin
      have hs' := hs.next (listInv_of_reachable hr) (unborn_of_reachable hr) ha hin.1
      rw [firstWake_cons ha, ← Option.or_assoc]
      exact Sleeping.along (.step a hr ha) hs' h hin.2

/-- A step, seen from a thread inside `dosleep(d)` that was not yet runnable:
if it is the timeout branch of a pass that wakes the thread, the deadline `d`
is not 0 and has passed. -/
theorem Sleeping.timed_step (hs : s.Sleeping t c d none) (hl : ListInv s) (hu : Unborn s) (h : step s a = some s')
    (hw : wokenBy (s.th t) (s'.th t) a = some .pass) : d ≠ 0 ∧ d ≤ s'.now := by
  obtain ⟨hr, hd, -⟩ := hs.phase
  have ha : a = .pass := by
    simp only [wokenBy] at hw; split at hw <;> simp_all
  rcases sleeper_step hs.cont hl hu h with ⟨ha', -⟩ | ⟨-, hn, -, -⟩ | ⟨-, ⟨ha', -⟩ | hth⟩
  · exact absurd (ha'.symm.trans ha) nofun
  · obtain ⟨-, -, -, rfl⟩ := step_pass (ha ▸ h)
    have hdue := scan_due hn
    simp only [Thread.due, hr, hd, Bool.false_or, Bool.and_eq_true, bne_iff_ne, decide_eq_true_eq] at hdue
    rw [now_pass]; exact hdue
  · exact absurd ha ha'
  · rw [hth, wokenBy_self] at hw; cases hw

/-- Along a run during which a thread stays inside `dosleep(d)`: once the
first step that made it runnable is a pass, `d ≠ 0` and the clock is past `d`. -/
theorem Sleeping.timed_along :
    ∀ {as : List Act} {s s2 : Sys} {w : Option Act}, Reachable s →
    s.Sleeping t c d w → (w = some .pass → d ≠ 0 ∧ d ≤ s.now) → run s as = some s2 →
    (∀ p ∈ s.states as, (p.pc t).cont = .sleep c) →
    w.or (s.firstWake t as) = some .pass → d ≠ 0 ∧ d ≤ s2.now
  | [], s, s2, w, _, _, hw, h, _, hp => by
    simp only [run, Option.some.injEq] at h
    subst h
    exact hw (by simpa [firstWake] using hp)
  | a :: as, s, s2, w, hr, hs, hw, h, hin, hp => by
    obtain ⟨s', ha, h⟩ := run_cons_eq_some.1 h
    rw [states_cons ha, List.forall_mem_cons] at hin
    rw [firstWake_cons ha, ← Option.or_assoc] at hp
    refine Sleeping.timed_along (.step a hr ha) (hs.next (listInv_of_reachable hr) (unborn_of_reachable hr) ha hin.1)
      (fun hw' => ?_) h hin.2 hp
    cases w with
    | none => exact hs.timed_step (listInv_of_reachable hr) (unborn_of_reachable hr) ha hw'
    | some b =>
      obtain ⟨hd, hle⟩ := hw hw'
      exact ⟨hd, hle.trans (now_le_step ha)⟩

/-- `msleep` and `absmsleep` return what `THREAD_TIMEDOUT` says, and clear it. -/
theorem Sleeping.sleepReturn {b : Act} (hs : s.Sleeping t .msleep d (some b)) (hc : s.cur = t) :
    (s.sleepReturn .msleep).pc t = .run .user ∧
    ((s.sleepReturn .msleep).ctx t).ret = (if b = .pass then 1 else 0) ∧
    hasFlag ((s.sleepReturn .msleep).th t).flags threadTimedout = false := by
  have hto := hs.phase.2.1
  subst hc
  simp only [hasFlag_threadTimedout] at hto
  refine ⟨by simp [Sys.sleepReturn, pc], ?_, by simp [Sys.sleepReturn]⟩
  by_cases hb : b = .pass <;> simp [Sys.sleepReturn, hto, hb]

/-- A call of `msleep(ms)` or `absmsleep(ms)` by the current thread `T`, with
the deadline `d` it computes, and a run during which `T` stays inside
`dosleep`: at its end `T` is `Sleeping` with `d`, the first step that made it
runnable being the run's. -/
theorem sleeping_of_call {as : List Act} {ms : UInt32} {cl : Call} (hr : Reachable s)
    (hc : cl = .msleep ms ∧ d = s.now + millisecs ms.toNat ∨ cl = .absmsleep ms ∧ d = millisecs ms.toNat)
    (h2 : run s (.call cl :: as) = some s2)
    (hin : ∀ p ∈ s.states (.call cl :: as), (p.pc s.cur).cont = .sleep .msleep) :
    Reachable s2 ∧ s2.Sleeping s.cur .msleep d (s.firstWake s.cur (.call cl :: as)) := by
  obtain ⟨s1, h1, h2⟩ := run_cons_eq_some.1 h2
  have hs1 : s1 = s.dosleep d .msleep := by
    rcases hc with ⟨rfl, rfl⟩ | ⟨rfl, rfl⟩ <;> simpa [call, eq_comm] using (step_call h1).2.2
  subst hs1
  have hs1 : (s.dosleep d .msleep).Sleeping s.cur .msleep d none := dosleep_sleeping
  rw [states_cons h1, List.forall_mem_cons] at hin
  have hr1 : Reachable (s.dosleep d .msleep) := .step _ hr h1
  refine ⟨reachable_run hr1 h2, ?_⟩
  rw [firstWake_cons h1, show wokenBy (s.th s.cur) ((s.dosleep d .msleep).th s.cur) (.call cl) = none by
    simp [wokenBy, hs1.phase.1]]
  simpa using hs1.along hr1 h2 hin.2

end

/-! ## `msleep` and `absmsleep` -/

/-- **`msleep` and `absmsleep` report how the sleep ended.** Take a call of
either by the current thread `T`, with the deadline `d` it computes, and any
run after it during which `T` stays inside `dosleep`, whatever the other
threads, the passes and the clock do. The step that ends the sleep is `T`'s
return to its caller; some step made `T` runnable before it; and `T` returns 1
if that step was the timeout branch of a pass, 0 if it was a wake, with
`THREAD_TIMEDOUT` clear, whatever it was at the call. -/
theorem dosleep_result {s s2 s3 : Sys} {as : List Act} {ms : UInt32} {cl : Call} {d : Int} {a : Act}
    (hr : Reachable s)
    (hc : cl = .msleep ms ∧ d = s.now + millisecs ms.toNat ∨ cl = .absmsleep ms ∧ d = millisecs ms.toNat)
    (h2 : run s (.call cl :: as) = some s2)
    (hin : ∀ p ∈ s.states (.call cl :: as), (p.pc s.cur).cont = .sleep .msleep)
    (h3 : step s2 a = some s3) (hout : (s3.pc s.cur).cont ≠ .sleep .msleep) :
    a = .run ∧ s3.pc s.cur = .run .user ∧
    (∃ b, s.firstWake s.cur (.call cl :: as) = some b) ∧
    ((s3.ctx s.cur).ret = 1 ↔ s.firstWake s.cur (.call cl :: as) = some .pass) ∧
    ((s3.ctx s.cur).ret = 0 ↔ ∃ b, b ≠ .pass ∧ s.firstWake s.cur (.call cl :: as) = some b) ∧
    hasFlag (s3.th s.cur).flags threadTimedout = false := by
  obtain ⟨hr2, hs2⟩ := sleeping_of_call hr hc h2 hin
  obtain ⟨b, hb, rfl, hcur, rfl⟩ :=
    hs2.leave (listInv_of_reachable hr2) (unborn_of_reachable hr2) h3 hout
  rw [hb] at hs2 ⊢
  obtain ⟨hpc3, hret, hto⟩ := hs2.sleepReturn hcur
  refine ⟨rfl, hpc3, ⟨b, rfl⟩, ?_, ?_, hto⟩ <;> by_cases hp : b = .pass <;> simp [hret, hp]

/-- From boot, the main thread calls `msleep(1)`; a millisecond passes and a
pass of the selection loop times it out; it returns 1. -/
theorem dosleep_result_timeout :
    ∃ s s2 s3 : Sys, Reachable s ∧
      run s [.call (.msleep 1), .tick 1000000, .pass] = some s2 ∧
      (∀ p ∈ s.states [.call (.msleep 1), .tick 1000000, .pass], (p.pc s.cur).cont = .sleep .msleep) ∧
      step s2 .run = some s3 ∧ (s3.pc s.cur).cont ≠ .sleep .msleep ∧
      (Act.run = .run ∧ s3.pc s.cur = .run .user ∧
        (∃ b, s.firstWake s.cur [.call (.msleep 1), .tick 1000000, .pass] = some b) ∧
        ((s3.ctx s.cur).ret = 1 ↔ s.firstWake s.cur [.call (.msleep 1), .tick 1000000, .pass] = some .pass) ∧
        ((s3.ctx s.cur).ret = 0 ↔
          ∃ b, b ≠ .pass ∧ s.firstWake s.cur [.call (.msleep 1), .tick 1000000, .pass] = some b) ∧
        hasFlag (s3.th s.cur).flags threadTimedout = false) := by
  have hr := reachable_getD [.run, .pass]
  have h2 := eq_some_getD (o := run ((run init [.run, .pass]).getD init)
    [.call (.msleep 1), .tick 1000000, .pass]) (by decide)
  have hin : ∀ p ∈ ((run init [.run, .pass]).getD init).states [.call (.msleep 1), .tick 1000000, .pass],
      (p.pc ((run init [.run, .pass]).getD init).cur).cont = .sleep .msleep := by decide
  have h3 := eq_some_getD (o := step ((run ((run init [.run, .pass]).getD init)
    [.call (.msleep 1), .tick 1000000, .pass]).getD init) .run) (by decide)
  have hout : (((step ((run ((run init [.run, .pass]).getD init) [.call (.msleep 1), .tick 1000000, .pass]).getD
      init) .run).getD init).pc ((run init [.run, .pass]).getD init).cur).cont ≠ .sleep .msleep := by decide
  exact ⟨_, _, _, hr, h2, hin, h3, hout, dosleep_result hr (.inl ⟨rfl, rfl⟩) h2 hin h3 hout⟩

/-- **`msleep` and `absmsleep` never time out early.** Take a call of either
by the current thread `T`, with the deadline `d` it computes, and any run
after it during which `T` stays inside `dosleep`. If `T` returns 1, its
deadline is not 0 and the clock has reached it: the timeout branch of
`schedule()` woke it at or after `d`, and the clock never runs back. -/
theorem msleep_timeout_not_early {s s2 s3 : Sys} {as : List Act} {ms : UInt32} {cl : Call} {d : Int} {a : Act}
    (hr : Reachable s)
    (hc : cl = .msleep ms ∧ d = s.now + millisecs ms.toNat ∨ cl = .absmsleep ms ∧ d = millisecs ms.toNat)
    (h2 : run s (.call cl :: as) = some s2)
    (hin : ∀ p ∈ s.states (.call cl :: as), (p.pc s.cur).cont = .sleep .msleep)
    (h3 : step s2 a = some s3) (hout : (s3.pc s.cur).cont ≠ .sleep .msleep) :
    (s3.ctx s.cur).ret = 1 → d ≠ 0 ∧ d ≤ s3.now := by
  intro h1
  obtain ⟨s1, hs1, h2'⟩ := run_cons_eq_some.1 h2
  have he : s1 = s.dosleep d .msleep := by
    rcases hc with ⟨rfl, rfl⟩ | ⟨rfl, rfl⟩ <;> simpa [call, eq_comm] using (step_call hs1).2.2
  subst he
  obtain ⟨hr2, hs2⟩ := sleeping_of_call hr hc h2 hin
  obtain ⟨b, hb, rfl, hcur, rfl⟩ := hs2.leave (listInv_of_reachable hr2) (unborn_of_reachable hr2) h3 hout
  have hp : b = .pass := by
    rw [hb] at hs2
    by_contra hp
    simp [(hs2.sleepReturn hcur).2.1, hp] at h1
  rw [states_cons hs1, List.forall_mem_cons] at hin
  have hw : s.firstWake s.cur (.call cl :: as) = (s.dosleep d .msleep).firstWake s.cur as := by
    rw [firstWake_cons hs1, show wokenBy (s.th s.cur) ((s.dosleep d .msleep).th s.cur) (.call cl) = none by
      simp [wokenBy, dosleep_sleeping.phase.1]]
    rfl
  rw [hw, hp] at hb
  have ht := dosleep_sleeping.timed_along (.step _ hr hs1) nofun h2' hin.2 (by simpa using hb)
  exact ht
/-- From boot, the main thread calls `msleep(1)`, which a pass times out one
millisecond later; it returns 1, at the time 1000000 ns, its deadline. -/
theorem msleep_timeout_not_early_one :
    ∃ s s2 s3 : Sys, Reachable s ∧
      run s [.call (.msleep 1), .tick 1000000, .pass] = some s2 ∧
      (∀ p ∈ s.states [.call (.msleep 1), .tick 1000000, .pass], (p.pc s.cur).cont = .sleep .msleep) ∧
      step s2 .run = some s3 ∧ (s3.pc s.cur).cont ≠ .sleep .msleep ∧ (s3.ctx s.cur).ret = 1 ∧
      ((s3.ctx s.cur).ret = 1 → s.now + millisecs (1 : UInt32).toNat ≠ 0 ∧
        s.now + millisecs (1 : UInt32).toNat ≤ s3.now) := by
  have hr := reachable_getD [.run, .pass]
  have h2 := eq_some_getD (o := run ((run init [.run, .pass]).getD init)
    [.call (.msleep 1), .tick 1000000, .pass]) (by decide)
  have hin : ∀ p ∈ ((run init [.run, .pass]).getD init).states [.call (.msleep 1), .tick 1000000, .pass],
      (p.pc ((run init [.run, .pass]).getD init).cur).cont = .sleep .msleep := by decide
  have h3 := eq_some_getD (o := step ((run ((run init [.run, .pass]).getD init)
    [.call (.msleep 1), .tick 1000000, .pass]).getD init) .run) (by decide)
  have hout : (((step ((run ((run init [.run, .pass]).getD init) [.call (.msleep 1), .tick 1000000, .pass]).getD
      init) .run).getD init).pc ((run init [.run, .pass]).getD init).cur).cont ≠ .sleep .msleep := by decide
  exact ⟨_, _, _, hr, h2, hin, h3, hout, by decide, msleep_timeout_not_early hr (.inl ⟨rfl, rfl⟩) h2 hin h3 hout⟩

/-- **`absmsleep(0)` is never timed out.** Its deadline 0 has passed at once,
but it is also the scan's "no deadline": along every run after the call
during which the caller `T` stays inside `dosleep`, `T` is runnable only once
a step other than a pass (a wake) made it so, and when it returns it returns
0. The spec has it return 1 at once. -/
theorem absmsleep_zero_never_expires {s s2 : Sys} {as : List Act} (hr : Reachable s)
    (h2 : run s (.call (.absmsleep 0) :: as) = some s2)
    (hin : ∀ p ∈ s.states (.call (.absmsleep 0) :: as), (p.pc s.cur).cont = .sleep .msleep) :
    ((s2.th s.cur).isRunnable = true ↔
      ∃ b, b ≠ .pass ∧ s.firstWake s.cur (.call (.absmsleep 0) :: as) = some b) ∧
    ∀ a s3, step s2 a = some s3 → (s3.pc s.cur).cont ≠ .sleep .msleep → (s3.ctx s.cur).ret = 0 := by
  obtain ⟨hr2, hs2⟩ := sleeping_of_call (d := 0) hr (.inr ⟨rfl, by simp [millisecs]⟩) h2 hin
  have hnp : ∀ b, s.firstWake s.cur (.call (.absmsleep 0) :: as) = some b → b ≠ .pass := by
    intro b hb hp
    have := hs2.phase
    rw [hb] at this
    exact this.2.2 hp rfl
  refine ⟨?_, fun a s3 h3 hout => ?_⟩
  · cases hw : s.firstWake s.cur (.call (.absmsleep 0) :: as) with
    | none => have := hs2.phase; rw [hw] at this; simp [this.1]
    | some b => have := hs2.phase; rw [hw] at this; simp [this.1, hnp b hw]
  · obtain ⟨b, hb, rfl, hcur, rfl⟩ :=
      hs2.leave (listInv_of_reachable hr2) (unborn_of_reachable hr2) h3 hout
    rw [hb] at hs2
    simp [(hs2.sleepReturn hcur).2.1, hnp b hb]

/-- From boot, the main thread creates a second thread and calls
`absmsleep(0)`; the second thread runs and wakes it. -/
theorem absmsleep_zero_woken :
    ∃ s s2 : Sys, Reachable s ∧
      run s [.call (.absmsleep 0), .pass, .call (.wake 1), .call .schedule, .pass] = some s2 ∧
      (∀ p ∈ s.states [.call (.absmsleep 0), .pass, .call (.wake 1), .call .schedule, .pass],
        (p.pc s.cur).cont = .sleep .msleep) ∧
      (((s2.th s.cur).isRunnable = true ↔ ∃ b, b ≠ .pass ∧
        s.firstWake s.cur [.call (.absmsleep 0), .pass, .call (.wake 1), .call .schedule, .pass] = some b) ∧
      ∀ a s3, step s2 a = some s3 → (s3.pc s.cur).cont ≠ .sleep .msleep → (s3.ctx s.cur).ret = 0) := by
  have hr := reachable_getD [.run, .pass, .call (.createThread none 0 false)]
  have h2 := eq_some_getD (o := run ((run init [.run, .pass, .call (.createThread none 0 false)]).getD init)
    [.call (.absmsleep 0), .pass, .call (.wake 1), .call .schedule, .pass]) (by decide)
  have hin : ∀ p ∈ ((run init [.run, .pass, .call (.createThread none 0 false)]).getD init).states
      [.call (.absmsleep 0), .pass, .call (.wake 1), .call .schedule, .pass],
      (p.pc ((run init [.run, .pass, .call (.createThread none 0 false)]).getD init).cur).cont =
        .sleep .msleep := by decide
  exact ⟨_, _, hr, h2, hin, absmsleep_zero_never_expires hr h2 hin⟩

/-! ## `rumpuser_clock_sleep` -/

/-- **`RUMPUSER_CLOCK_RELWALL` keeps the low 32 bits of the millisecond
count.** For every `sec ≥ 0` and `0 ≤ nsec < 10^9`, the caller sleeps in
`dosleep` until `now + (msec mod 2^32)` milliseconds, where
`msec = sec*1000 + nsec/10^6`: the deadline asked for exactly when `msec`
fits in 32 bits. -/
theorem relwall_deadline (s : Sys) {sec nsec : Int} (hs : 0 ≤ sec) (hn : 0 ≤ nsec) (hn' : nsec < 1000000000) :
    s.clockSleep .relwall sec nsec =
      s.dosleep (s.now + (sec * 1000 + nsec / 1000000) % 2 ^ 32 * 1000000) .clock ∧
    (s.now + (sec * 1000 + nsec / 1000000) % 2 ^ 32 * 1000000 =
        s.now + (sec * 1000 + nsec / 1000000) * 1000000 ↔
      sec * 1000 + nsec / 1000000 < 2 ^ 32) := by
  have hmod : nsec % 2 ^ 64 = nsec := Int.emod_eq_of_lt hn (by omega)
  refine ⟨?_, by omega⟩
  rw [clockSleep, millisecs, relwallMsec, hmod, Int.toNat_of_nonneg (Int.emod_nonneg _ (by decide))]

/-- A sleep of 4294968 s (49.7 days) from boot ends after 704 ms. -/
theorem relwall_deadline_wraps :
    init.clockSleep .relwall 4294968 0 = init.dosleep 704000000 .clock ∧
      ¬(4294968 * 1000 + 0 / 1000000 < (2 : Int) ^ 32) := by
  have h := @relwall_deadline init 4294968 0 (by decide) (by decide) (by decide)
  exact ⟨h.1, fun hlt => absurd (h.2.2 hlt) (by decide)⟩

/-! ## A wake is kept -/

section
variable {s s' : Sys} {a : Act}

/-- A pass clears no run flag: the scan only wakes. -/
theorem pass_isRunnable (s : Sys) {u : Tid} (hr : (s.th u).isRunnable = true) : (s.pass.th u).isRunnable = true := by
  rw [pass_th]
  by_cases hn : s.selected = some u
  · rw [scan_th_some hn, Function.update_same, expire_of_isRunnable hr, hr]
  · rw [scan_th_ne hn, hr]

/-- No step clears the run flag of a thread other than the one on the CPU:
the scan only wakes, and other code only wakes or creates. -/
theorem runnable_step (hc : s.cur ≠ s.nextTid) {u : Tid} (hu : u ≠ s.cur) (hr : (s.th u).isRunnable = true)
    (h : step s a = some s') : (s'.th u).isRunnable = true := by
  by_cases ha : a = .pass
  · subst ha
    obtain ⟨-, -, -, rfl⟩ := step_pass h
    exact pass_isRunnable s hr
  have hf := segFrame_of_step hc ha h
  by_cases hn : u = s.nextTid
  · subst hn
    rcases hf.next with ⟨-, -, ht⟩ | ⟨-, hfr⟩
    exacts [ht.isRunnable hr, hfr.runnable]
  · exact (hf.th u hu hn).isRunnable hr

/-- **A wake is kept until the thread runs.** Along every run from a
reachable state, a thread that is runnable at the start is runnable at the
end, unless it was on the CPU somewhere along the run. -/
theorem wake_kept {u : Tid} : ∀ {as : List Act} {s s' : Sys}, Reachable s → run s as = some s' →
    (s.th u).isRunnable = true → (s'.th u).isRunnable = true ∨ ∃ p ∈ s :: s.states as, p.cur = u
  | [], s, s', _, h, hr => by
    simp only [run, Option.some.injEq] at h
    exact .inl (h ▸ hr)
  | a :: as, s, s', hs, h, hr => by
    obtain ⟨s1, h1, h⟩ := run_cons_eq_some.1 h
    by_cases hu : u = s.cur
    · exact .inr ⟨s, List.mem_cons_self _ _, hu.symm⟩
    rw [states_cons h1]
    refine (wake_kept (.step a hs h1) h ?_).imp_right fun ⟨p, hp, hpu⟩ => ⟨p, List.mem_cons_of_mem _ hp, hpu⟩
    exact runnable_step (listInv_of_reachable hs).cur_lt.ne hu hr h1

/-- At boot the idle thread blocks itself; thread 1, runnable, gets the CPU. -/
theorem wake_kept_boot :
    (((run init [.run, .pass]).getD init).th 1).isRunnable = true ∨
      ∃ p ∈ init :: init.states [.run, .pass], p.cur = 1 :=
  wake_kept .init (eq_some_getD (by decide)) (by decide)

end

section
variable {s : Sys} {T : Tid}

/-- A runnable thread of the run list, not on the CPU, is eligible at every
pass of a run until one selects it. -/
theorem eligible_until_selected : ∀ (as : List Act) {s : Sys}, Reachable s → T ∈ s.runq → T ≠ s.cur →
    (s.th T).isRunnable = true → ∀ p ∈ (s.passStates as).takeWhile (·.selected ≠ some T), p.eligible T = true
  | [], _, _, _, _, _ => by simp [passStates]
  | a :: as, s, hr, hT, hc, hrun => by
    cases h : step s a with
    | none => simp [passStates, h]
    | some s' =>
      have hl := listInv_of_reachable hr
      have ih := eligible_until_selected as (.step a hr h) (mem_runq_step hl hT hc h)
      have hrun' := runnable_step hl.cur_lt.ne hc hrun h
      by_cases ha : a = .pass
      · subst ha
        obtain ⟨-, -, -, rfl⟩ := step_pass h
        rw [passStates_cons h, if_pos rfl, List.singleton_append]
        by_cases hs : s.selected = some T
        · simp [hs]
        have hc' : T ≠ s.pass.cur := by
          cases hsel : s.selected with
          | none => rw [pass_none hsel]; exact hc
          | some n => rw [hl.pass_cur hsel]; rintro rfl; exact hs hsel
        rw [List.takeWhile_cons_of_pos (by simp [hs])]
        rintro p (_ | ⟨_, hp⟩)
        · simp [eligible, hT, Thread.due, hrun]
        · exact ih hc' hrun' p hp
      · rw [passStates_cons h, if_neg ha, List.nil_append]
        exact ih (by rw [(segFrame_of_step hl.cur_lt.ne ha h).cur]; exact hc) hrun'

/-- **A runnable thread gets the CPU within `p + 1` passes.** From every
reachable state, take a runnable thread `T` of the run list that is not on
the CPU (just woken, or parked in `schedule()` and runnable), and any run,
whatever the other threads do: the passes before the first that selects `T`
select distinct threads, each ahead of `T` at the start, and `T` is selected
within `p + 1` passes, `p` the number of threads ahead of it. -/
theorem runnable_selected_within (hr : Reachable s) (hT : T ∈ s.runq) (hc : T ≠ s.cur)
    (hrun : (s.th T).isRunnable = true) (as : List Act) :
    ((s.selections as).takeWhile (· ≠ some T)).Nodup ∧
      (∀ o ∈ (s.selections as).takeWhile (· ≠ some T), ∃ n ∈ s.ahead T, o = some n) ∧
      ((s.ahead T).length < (s.selections as).length →
        some T ∈ (s.selections as).take ((s.ahead T).length + 1)) :=
  selections_before_of hr hT (eligible_until_selected as hr hT hc hrun)

/-- At boot the main thread, runnable behind the idle thread, gets the CPU at
the first pass. -/
theorem runnable_selected_within_boot :
    init.selections [.run, .pass] = [some 1] ∧
    ((init.selections [.run, .pass]).takeWhile (· ≠ some 1)).Nodup ∧
      (∀ o ∈ (init.selections [.run, .pass]).takeWhile (· ≠ some 1), ∃ n ∈ init.ahead 1, o = some n) ∧
      ((init.ahead 1).length < (init.selections [.run, .pass]).length →
        some 1 ∈ (init.selections [.run, .pass]).take ((init.ahead 1).length + 1)) :=
  ⟨by decide, runnable_selected_within .init (by decide) (by decide) (by decide) _⟩

end

end Sys
end RumpuserXen
