import RumpuserXen.Frame
import RumpuserXen.Lists

/-
  The event mask

  `schedule()` saves the mask with `local_irq_save` and calls `BUG()` if
  events were masked; the selection loop then runs masked, and the mask the
  caller had is restored before the switch. `exit_thread`, `join_thread`
  and `biothread` mask events around their tests and unmask them before
  each `schedule()`.

  What is proved:
    1. `IrqInv` holds in every reachable state (`irqInv_of_reachable`): the
       `BUG()` of `schedule()` never runs; while the system runs, events are
       masked exactly inside `schedule()` and in the poll loop of
       `biothread`; inside `schedule()` the mask it saved is "unmasked";
    2. `irq_discipline` — every `schedule()` is entered with events
       unmasked, every entry point returns to its caller with events
       unmasked, and `schedule()` restores that mask before it switches.
-/

namespace RumpuserXen
namespace Sys

/-- The event mask in a reachable state: as `IrqCur` says, and the poll loop
of `biothread` is entered only by the running thread. -/
structure IrqInv (s : Sys) : Prop where
  cur : IrqCur s
  poll_run : ∀ t, (s.pc t).cont = .pumpPoll → s.pc t = .run .pumpPoll

section
variable {s s' : Sys}

theorem irqInv_init : IrqInv init where
  cur := ⟨by simp [init], by simp [init, pc, Pc.isRun], by simp [init], by simp [init, pc],
    by simp [init, pc, Pc.cont]⟩
  poll_run t := by simp only [init, pc]; split_ifs <;> simp [Ctx.start, Pc.cont]

/-- Every step but a pass, taken from a state that satisfies the invariant. -/
theorem IrqInv.cur_step (hi : IrqInv s) {a : Act} (ha : a ≠ .pass)
    (h : step s a = some s') : IrqCur s' := by
  cases a with
  | call c => obtain ⟨hh, hpc, h⟩ := step_call h; exact (footprint_call hpc h).mask hh hi.cur
  | run => obtain ⟨hh, k, hpc, h⟩ := step_run h; exact (footprint_cont hpc h).mask hh hi.cur
  | initDone res =>
    obtain ⟨hh, num, c, hpc, rfl⟩ := step_initDone h; exact (footprint_devopenDone hpc).mask hh hi.cur
  | poll cs => obtain ⟨hh, hpc, rfl⟩ := step_poll h; exact (footprint_poll hpc cs).mask hh hi.cur
  | yield =>
    obtain ⟨hh, k, hpc, hy, rfl⟩ := step_yield h
    have hk : k ≠ .pumpPoll := by rintro rfl; simp [Cont.yieldable] at hy
    have hm' : s.irqMasked = false := by simpa [hpc, Pc.isRun, hk] using hi.cur.masked hh
    refine ⟨?_, ?_, ?_, ?_, ?_⟩ <;> simp [hh, hm', pc, Pc.isRun, Pc.cont]
    cases k <;> simp_all [Cont.yieldable]
  | pass => exact absurd rfl ha
  | tick d =>
    obtain ⟨-, rfl⟩ := step_tick h
    exact ⟨hi.cur.1, hi.cur.2, hi.cur.3, hi.cur.4, hi.cur.5⟩
  | irq t =>
    obtain ⟨-, -, -, rfl⟩ := step_irq h
    exact ⟨hi.cur.1, hi.cur.2, hi.cur.3, hi.cur.4, hi.cur.5⟩

/-- A pass of `schedule()`'s loop restores the mask its caller had, which was
"unmasked", and switches to a thread that is not in the poll loop. -/
theorem IrqInv.pass (hi : IrqInv s) (hl : ListInv s) {k : Cont} (hh : s.halted = none)
    (hk : s.pc s.cur = .sched k) : IrqInv s.pass := by
  have hsf := hi.cur.sched_flags (by rw [hk]; rfl)
  cases hsel : s.selected with
  | none =>
    rw [pass_none hsel]
    exact ⟨⟨hi.cur.no_bug, hi.cur.masked, hi.cur.sched_flags, hi.cur.saved, hi.cur.poll_run⟩,
      hi.poll_run⟩
  | some n =>
    have hn : (s.pc n).cont ≠ .pumpPoll := fun h => by
      have := hi.poll_run n h
      by_cases hnc : n = s.cur
      · subst hnc; simp [hk] at this
      · simpa [this, Pc.isRun] using hl.parked n hnc
    obtain ⟨e, l, hp, -⟩ := pass_some_eq hsel
    refine ⟨⟨?_, ?_, ?_, ?_, ?_⟩, fun t ht => ?_⟩ <;> rw [hp] at * <;>
      simp only [pc, handoff_cur, handoff_irqMasked, handoff_halted, Function.update_same] at * <;>
      simp_all [Pc.isRun, Pc.cont]
    by_cases htn : t = n
    · subst htn; simp_all [Pc.cont]
    · simp_all [Function.update_noteq htn]
      exact hi.poll_run t (by simpa [pc] using ht)

theorem IrqInv.preserved (hi : IrqInv s) (hl : ListInv s) {a : Act} (h : step s a = some s') :
    IrqInv s' := by
  by_cases ha : a = .pass
  · subst ha; obtain ⟨hh, k, hk, rfl⟩ := step_pass h; exact hi.pass hl hh hk
  · have hf := segFrame_of_step (Nat.ne_of_lt hl.cur_lt) ha h
    have hc := hi.cur_step ha h
    refine ⟨hc, fun u hu => ?_⟩
    by_cases huc : u = s.cur
    · subst huc; rw [← hf.cur]; exact hc.poll_run (hf.cur ▸ hu)
    · by_cases hn : u = s.nextTid
      · subst hn
        rcases hf.next with ⟨-, hctx, -⟩ | ⟨-, hfr⟩
        · rw [pc, hctx] at hu ⊢; exact hi.poll_run _ hu
        · rcases hfr.pc with h | h <;> simp [pc, h, Pc.cont] at hu
      · rw [pc, hf.ctx u huc hn] at hu ⊢; exact hi.poll_run u hu

theorem irqInv_of_reachable (h : Reachable s) : IrqInv s := by
  induction h with
  | init => exact irqInv_init
  | step a hs hst ih => exact ih.preserved (listInv_of_reachable hs) hst

/-- **The event mask.** In every reachable state the `BUG()` of `schedule()`
for a call with events masked has not run; while the system runs, events are
masked exactly when the current thread is inside `schedule()` or in the poll
loop of `biothread`, so every entry point returns to the rump kernel with
events unmasked and every `schedule()` it calls is entered unmasked; and
inside `schedule()` the saved mask, which the selection loop restores before
the switch, is "unmasked". -/
theorem irq_discipline (h : Reachable s) :
    s.halted ≠ some .schedIrqsDisabled ∧
      (s.halted = none →
        (s.irqMasked = true ↔ (s.pc s.cur).isRun = false ∨ s.pc s.cur = .run .pumpPoll)) ∧
      ((s.pc s.cur).isRun = false → s.schedFlags = false) ∧
      ∀ n, s.selected = some n → s.pass.irqMasked = s.schedFlags := by
  have hi := irqInv_of_reachable h
  refine ⟨hi.cur.no_bug, hi.cur.masked, hi.cur.sched_flags, fun n hn => ?_⟩
  obtain ⟨e, l, hp, -⟩ := pass_some_eq hn
  rw [hp]; rfl

theorem irq_discipline_init :
    init.halted ≠ some .schedIrqsDisabled ∧
      (init.halted = none →
        (init.irqMasked = true ↔ (init.pc init.cur).isRun = false ∨ init.pc init.cur = .run .pumpPoll)) ∧
      ((init.pc init.cur).isRun = false → init.schedFlags = false) ∧
      ∀ n, init.selected = some n → init.pass.irqMasked = init.schedFlags :=
  irq_discipline Reachable.init

end

end Sys
end RumpuserXen
