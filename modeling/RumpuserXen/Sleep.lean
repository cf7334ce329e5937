import RumpuserXen.Frame
import RumpuserXen.Lists

/-
  Deadlines and the run flag

  `wakeup_time` is non-zero only on a thread that sleeps: `dosleep` and the
  `RUMPUSER_CLOCK_ABSMONO` branch of `rumpuser_clock_sleep` store it and clear
  `RUNNABLE_FLAG` in one stretch of code, and park the thread in
  `schedule()`; every other write of either field is `wake`, `block` or
  `create_thread`, which zero the deadline.

  What is proved:
    1. `SleepInv` holds in every reachable state (`sleepInv_of_reachable`):
       a thread with a deadline is not runnable, and is parked in `dosleep`
       or in the ABSMONO branch;
    2. `sleep_wakeup` — hence a runnable thread has no deadline, and a pass
       of `schedule()` leaves every thread parked elsewhere alone: only
       `wake` makes a blocked thread runnable.
-/

namespace RumpuserXen

theorem SleepOk.of_zero {th : Thread} {p : Pc} (h : th.wakeupTime = 0) : SleepOk th p :=
  fun h' => absurd h h'

theorem SleepOk.touch {a b : Thread} {p : Pc} (h : SleepOk a p) (ht : Touch a b) : SleepOk b p := by
  cases ht with
  | keep => exact h
  | wake | release => exact .of_zero rfl

theorem SleepOk.zero_of_run {th : Thread} {k : Cont} (h : SleepOk th (.run k)) :
    th.wakeupTime = 0 := by
  by_contra hw; simpa [Pc.isSleep] using (h hw).2

/-- The timeout branch of the scan leaves a thread with no deadline alone. -/
theorem expire_of_wakeup_zero {now : Int} {x : Thread} (h : x.wakeupTime = 0) : expire now x = x := by
  simp [expire, h]

/-- A thread the scan selects has no deadline left. -/
theorem SleepOk.expire {now : Int} {x : Thread} {p : Pc} (h : SleepOk x p)
    (hr : (expire now x).isRunnable = true) : (expire now x).wakeupTime = 0 := by
  unfold RumpuserXen.expire at hr ⊢
  split
  · rfl
  · next hc => rw [if_neg hc] at hr; by_contra hw; simp [(h hw).1] at hr

namespace Sys

/-- Every thread's deadline and run flag pair as `SleepOk` says. -/
def SleepInv (s : Sys) : Prop := ∀ u, SleepOk (s.th u) (s.pc u)

section
variable {s s' : Sys}

theorem sleepInv_init : SleepInv init := fun u => .of_zero (by simp only [init]; split_ifs <;> rfl)

/-- The current thread after a step that is not a pass: no deadline, or a
deadline, the run flag clear, and the thread parked in a sleep. -/
theorem SleepInv.cur (hi : SleepInv s) {a : Act} (ha : a ≠ .pass) (h : step s a = some s') :
    SleepOk (s'.th s.cur) (s'.pc s.cur) := by
  cases a with
  | call c =>
    obtain ⟨-, hpc, h⟩ := step_call h
    exact (footprint_call hpc h).sleep (SleepOk.zero_of_run (hpc ▸ hi s.cur))
  | run =>
    obtain ⟨-, k, hpc, h⟩ := step_run h
    exact (footprint_cont hpc h).sleep (SleepOk.zero_of_run (hpc ▸ hi s.cur))
  | initDone res =>
    obtain ⟨-, num, c, hpc, rfl⟩ := step_initDone h
    exact (footprint_devopenDone hpc).sleep (SleepOk.zero_of_run (hpc ▸ hi s.cur))
  | poll cs =>
    obtain ⟨-, hpc, rfl⟩ := step_poll h
    exact (footprint_poll hpc cs).sleep (SleepOk.zero_of_run (hpc ▸ hi s.cur))
  | yield =>
    obtain ⟨-, k, hpc, -, rfl⟩ := step_yield h
    exact .of_zero (by simpa using SleepOk.zero_of_run (hpc ▸ hi s.cur))
  | pass => exact absurd rfl ha
  | tick d => obtain ⟨-, rfl⟩ := step_tick h; exact hi s.cur
  | irq t =>
    obtain ⟨-, -, -, rfl⟩ := step_irq h
    by_cases ht : s.cur = t
    · exact .of_zero (by simp [ht])
    · simpa [ht] using hi s.cur

/-- A pass keeps the pairing: the scan zeroes the deadline of the thread it
wakes, and the thread it selects has none. -/
theorem SleepInv.pass (hi : SleepInv s) : SleepInv s.pass := by
  intro u
  rw [pc, pass_th]
  by_cases hu : s.selected = some u
  · rw [scan_th_some hu]
    simp only [Function.update_same]
    exact .of_zero ((hi u).expire (by rw [expire_isRunnable]; exact scan_due hu))
  · rw [scan_th_ne hu, pass_ctx s hu]; exact hi u

theorem SleepInv.preserved (hi : SleepInv s) (hl : ListInv s) {a : Act} (h : step s a = some s') :
    SleepInv s' := by
  by_cases ha : a = .pass
  · subst ha; obtain ⟨-, -, -, rfl⟩ := step_pass h; exact hi.pass
  · have hf := segFrame_of_step (Nat.ne_of_lt hl.cur_lt) ha h
    intro u
    by_cases hu : u = s.cur
    · subst hu; exact hi.cur ha h
    · by_cases hn : u = s.nextTid
      · subst hn
        rcases hf.next with ⟨-, hctx, ht⟩ | ⟨-, hfr⟩
        · rw [pc, hctx]; exact (hi _).touch ht
        · exact .of_zero hfr.wakeup
      · rw [pc, hf.ctx u hu hn]; exact (hi u).touch (hf.th u hu hn)

theorem sleepInv_of_reachable (h : Reachable s) : SleepInv s := by
  induction h with
  | init => exact sleepInv_init
  | step a hs hst ih => exact ih.preserved (listInv_of_reachable hs) hst

/-- **Deadlines and the run flag.** In every reachable state a runnable thread
has no deadline, a thread with a deadline is parked in `dosleep` or in the
ABSMONO branch of `rumpuser_clock_sleep`, and a pass of `schedule()` leaves
the descriptor of every thread parked elsewhere as it was: the timeout branch
never makes such a thread runnable. -/
theorem sleep_wakeup (h : Reachable s) :
    (∀ t, (s.th t).isRunnable = true → (s.th t).wakeupTime = 0) ∧
      (∀ t, (s.th t).wakeupTime ≠ 0 → (s.pc t).isSleep = true) ∧
      ∀ t, (s.pc t).isSleep = false → s.pass.th t = s.th t := by
  have hi := sleepInv_of_reachable h
  refine ⟨fun t hr => ?_, fun t hw => (hi t hw).2, fun t hp => ?_⟩
  · by_contra hw; simp [(hi t hw).1] at hr
  · have hw : (s.th t).wakeupTime = 0 := by
      by_contra hw; rw [(hi t hw).2] at hp; cases hp
    rw [pass_th]
    by_cases hu : s.selected = some t
    · rw [scan_th_some hu, Function.update_same, expire_of_wakeup_zero hw]
    · exact scan_th_ne hu

theorem sleep_wakeup_init :
    (∀ t, (init.th t).isRunnable = true → (init.th t).wakeupTime = 0) ∧
      (∀ t, (init.th t).wakeupTime ≠ 0 → (init.pc t).isSleep = true) ∧
      ∀ t, (init.pc t).isSleep = false → init.pass.th t = init.th t :=
  sleep_wakeup Reachable.init

end

end Sys
end RumpuserXen
