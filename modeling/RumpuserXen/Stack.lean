import RumpuserXen.Lists

/-
  Stack ownership

  `THREAD_EXTSTACK` is meant to mark a thread whose stack the caller of
  `create_thread` supplied: the reap loop of `schedule()` frees the stack of
  every reclaimed thread without the bit.

  What is proved:
    1. `archCreateThread_extstack` — `arch_create_thread` (modelled from the
       spec) sets the bit exactly when a stack is supplied;
    2. `createThread_extstack` — `create_thread` then writes `flags = 0`, so
       the bit is clear on every thread it returns, whatever stack it got;
    3. `mem_reapEvents_freePages` — the reap loop frees the stack of every
       thread it reclaims whose bit is clear;
    4. `reap_frees_caller_stack` — a run in which a thread created on a
       stack of its caller exits, and the reap loop hands that stack to
       `free_pages`.
-/

namespace RumpuserXen
namespace Sys

theorem archCreateThread_extstack (s : Sys) (k : Cont) (stack : Option Nat) :
    hasFlag ((s.archCreateThread k stack).th s.nextTid).flags threadExtstack = stack.isSome ∧
      ((s.archCreateThread k stack).th s.nextTid).stack = stack.getD s.nextPage := by
  cases stack <;> simp [Thread.none]

/-- **`create_thread` clears `THREAD_EXTSTACK`**: the thread it returns has
the bit clear, on a stack of its caller as well. -/
theorem createThread_extstack (s : Sys) (cookie : Nat) (k : Cont) (stack : Option Nat) :
    hasFlag ((s.createThread cookie k stack).th s.nextTid).flags threadExtstack = false ∧
      ((s.createThread cookie k stack).th s.nextTid).stack = stack.getD s.nextPage := by
  simp [(archCreateThread_extstack s k stack).2]

theorem mem_reapEvents_freePages {th : Tid → Thread} {t : Tid} :
    ∀ {l : List Tid}, t ∈ l → hasFlag (th t).flags threadExtstack = false →
      Event.freePages (th t).stack ∈ reapEvents th l
  | u :: l, ht, hx => by
    rcases List.mem_cons.1 ht with rfl | ht
    · simp [reapEvents, hx]
    · simp [reapEvents, mem_reapEvents_freePages ht hx]

end Sys

/-- Boot; the idle thread blocks and the main thread runs. It creates a thread
on a stack of its own at address 4096 and calls `schedule()` until the new
thread runs; the new thread exits, and the main thread returns from its
`schedule()`, whose reap loop reclaims the new thread. -/
def extStackTrace : List Act :=
  [.run, .pass, .call (.createThread (some 4096) 7 false), .call .schedule, .pass,
   .call .schedule, .pass, .call .exitThread, .pass]

/-- The reap loop hands the stack the main thread lent to `create_thread` to
`free_pages`. -/
theorem reap_frees_caller_stack :
    ∃ s, Reachable s ∧ (s.th 2).stack = 4096 ∧ Event.xfree 2 ∈ s.log ∧
      Event.freePages 4096 ∈ s.log := by
  obtain ⟨s, hs, hp⟩ := reach_of_run (l := extStackTrace)
    (p := fun s => (s.th 2).stack == 4096 && decide (Event.xfree 2 ∈ s.log) &&
      decide (Event.freePages 4096 ∈ s.log)) (by decide)
  simp only [Bool.and_eq_true, beq_iff_eq, decide_eq_true_eq] at hp
  exact ⟨s, hs, hp.1.1, hp.1.2, hp.2⟩

end RumpuserXen
