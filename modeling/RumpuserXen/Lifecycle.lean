import RumpuserXen.Timeout

/-
  The life of a thread

  The spec draws the life of a thread as a state machine: NEW, RUNNABLE,
  WAITING (blocked by itself, with or without a deadline), EXITING (held in
  the gate of `exit_thread` while `THREAD_MUSTJOIN` is set), EXITED (on
  `exited_threads`) and REAPED (reclaimed by the reap loop of another
  thread's `schedule()`). `Phase.Move` is that machine, each move saying
  whether the thread it moves is the one whose code runs; `Sys.phase` reads
  the phase of a thread off the state of the model, through `Phase.of`.

  What is proved:
    1. `Phase.of_other`, `Phase.of_self`, `Phase.of_pass` — what may change
       of a thread's state under a step of another thread's code, of its own
       code, and under a pass gives a move of the machine;
    2. `phase_step` — from every reachable state, every step moves the phase
       of every thread by a move of the machine: a thread blocks itself,
       enters the gate and the exited list only by its own code, is created
       and reclaimed only by another thread's, may be woken by any;
    3. `phase_run` — along every run the phase of every thread only moves
       forward: NEW, then RUNNABLE or WAITING, EXITING, EXITED, REAPED.
-/

namespace RumpuserXen

/-- The phases of a thread in the spec's state machine. -/
inductive Phase where
  | new
  | runnable
  | waiting
  | exiting
  | exited
  | reaped
  deriving DecidableEq, Repr

/-- The moves of the machine; `self` says whether the thread moved is the one
whose code runs the step. -/
inductive Phase.Move : Bool → Phase → Phase → Prop
  | stay (self : Bool) (p : Phase) : Move self p p
  /-- `create_thread`, in another thread. -/
  | create : Move false .new .runnable
  /-- `block` or `dosleep`, by the thread itself. -/
  | block : Move true .runnable .waiting
  /-- `wake`, by any thread, or the timeout branch of a pass. -/
  | wake (self : Bool) : Move self .waiting .runnable
  /-- The gate of `exit_thread`, by the thread itself. -/
  | gate {p : Phase} : p = .runnable ∨ p = .waiting → Move true p .exiting
  /-- `exit_thread` puts its caller on `exited_threads`. -/
  | exit {p : Phase} : p = .runnable ∨ p = .waiting ∨ p = .exiting → Move true p .exited
  /-- The reap loop of another thread's `schedule()`. -/
  | reap : Move false .exited .reaped

/-- How far along its life a thread is. -/
def Phase.rank : Phase → Nat
  | .new => 0
  | .runnable => 1
  | .waiting => 1
  | .exiting => 2
  | .exited => 3
  | .reaped => 4

theorem Phase.Move.rank_le {self : Bool} {p q : Phase} (h : Move self p q) : p.rank ≤ q.rank := by
  cases h with
  | stay => exact le_rfl
  | gate hp => rcases hp with rfl | rfl <;> decide
  | exit hp => rcases hp with rfl | rfl | rfl <;> decide
  | _ => decide

/-- The phase of a thread from what the state says of it: not created yet,
reclaimed, on the exited list, in the gate of `exit_thread`, runnable. -/
def Phase.of (unborn freed exited gate runnable : Bool) : Phase :=
  if unborn then .new
  else if freed then .reaped
  else if exited then .exited
  else if gate then .exiting
  else if runnable then .runnable
  else .waiting

/-- A step of another thread's code: the thread may only be woken. -/
theorem Phase.of_other (u f e g : Bool) {r r' : Bool} (hr : r = true → r' = true) :
    Move false (of u f e g r) (of u f e g r') := by
  unfold of
  cases u
  case true => exact .stay _ _
  cases f
  case true => exact .stay _ _
  cases e
  case true => exact .stay _ _
  cases g
  case true => exact .stay _ _
  cases r
  case true => rw [hr rfl]; exact .stay _ _
  cases r' <;> first | exact .stay _ _ | exact .wake _

/-- A step of the thread's own code: it stays reclaimed or exited, leaves the
gate only for the exited list, and may block, wake, enter the gate or exit. -/
theorem Phase.of_self (f : Bool) {e e' g g' r r' : Bool} (he : e = true → e' = true)
    (hg : g = true → e' = false → g' = true) : Move true (of false f e g r) (of false f e' g' r') := by
  unfold of
  cases f
  case true => exact .stay _ _
  cases e
  case true => rw [he rfl]; exact .stay _ _
  cases e'
  case true => cases g <;> cases r <;> exact .exit (by simp)
  cases g
  case true => rw [hg rfl rfl]; exact .stay _ _
  cases g' <;> cases r <;> cases r' <;> simp only [Bool.false_eq_true, if_false, if_true] <;>
    first | exact .stay _ _ | exact .wake _ | exact .block | exact .gate (by simp)

/-- A pass: it may wake a thread, and reclaim an exited thread other than the
one it resumes. -/
theorem Phase.of_pass {self : Bool} (u g : Bool) {f f' e e' r r' : Bool} (hf : f = true → f' = true)
    (hf' : f = false → f' = true → e = true ∧ self = false) (he : e' = true → e = true)
    (he' : e = true → e' = true ∨ f' = true) (hr : r = true → r' = true) :
    Move self (of u f e g r) (of u f' e' g r') := by
  unfold of
  cases u
  case true => exact .stay _ _
  cases f
  case true => rw [hf rfl]; exact .stay _ _
  cases f'
  case true => obtain ⟨rfl, rfl⟩ := hf' rfl rfl; exact .reap
  cases e
  case true => rw [(he' rfl).resolve_right Bool.false_ne_true]; exact .stay _ _
  cases e'
  case true => cases he rfl
  cases g
  case true => exact .stay _ _
  cases r
  case true => rw [hr rfl]; exact .stay _ _
  cases r' <;> first | exact .stay _ _ | exact .wake _

namespace Sys

instance (s : Sys) (t : Tid) : Decidable (s.Freed t) := inferInstanceAs (Decidable (Event.xfree t ∈ s.log))

/-- The phase of thread `t`. -/
def phase (s : Sys) (t : Tid) : Phase :=
  Phase.of (decide (s.nextTid ≤ t)) (decide (s.Freed t)) (decide (t ∈ s.exited))
    (decide ((s.pc t).cont = .exitGate)) (s.th t).isRunnable

/-- The thread whose code runs a step: the caller, or for a pass the thread it
resumes, which runs the reap loop. -/
def actor (s s' : Sys) (a : Act) : Tid := if a = .pass then s'.cur else s.cur

section
variable {s s' : Sys} {a : Act}

/-! ## The lists and the reclaimed threads under a step -/

/-- A step other than a pass reclaims nothing, and changes the exited list at
most by its caller joining it. -/
theorem lists_of_ne_pass (hl : ListInv s) (ha : a ≠ .pass) (h : step s a = some s') :
    (∀ t, s'.Freed t ↔ s.Freed t) ∧ (∀ t, t ≠ s.cur → (t ∈ s'.exited ↔ t ∈ s.exited)) ∧
      (s.cur ∈ s.exited → s.cur ∈ s'.exited) := by
  cases listsMove_of_step (hl.not_run_exitDead _) h with
  | keep hk _ => exact ⟨hk.freed, fun t _ => by rw [hk.exited], fun hc => hk.exited ▸ hc⟩
  | create _ _ _ _ _ hk _ =>
    exact ⟨fun t => (hk.freed t).trans (by simp [Freed]), fun t _ => by simp [hk.exited],
      fun hc => by simpa [hk.exited] using hc⟩
  | exit _ he =>
    refine ⟨fun t => by simp only [Freed, ← List.count_pos_iff, he.xfree], fun t ht => ?_, fun _ => ?_⟩
    · simp [he.exited, ht]
    · simp [he.exited]
  | pass ha' _ _ => exact absurd ha' ha

/-- A thread in the gate of `exit_thread` stays there, unless it moves itself
to the exited list. -/
theorem exitGate_stays (hc : (s.pc s.cur).cont = .exitGate) (ha : a ≠ .pass) (h : step s a = some s') :
    (s'.pc s.cur).cont = .exitGate ∨ s.cur ∈ s'.exited := by
  cases a with
  | call c => obtain ⟨-, hp, -⟩ := step_call h; rw [hp] at hc; cases hc
  | run =>
    obtain ⟨-, k, hp, h⟩ := step_run h
    rw [hp, Pc.cont_run] at hc
    subst hc
    simp only [cont, Option.some.injEq] at h
    subst h
    simp only [exitGate]
    split
    · exact .inl (by simp [pc, Pc.cont])
    · exact .inr (by simp)
  | initDone res => obtain ⟨-, num, c, hp, -⟩ := step_initDone h; rw [hp] at hc; cases hc
  | poll cs => obtain ⟨-, hp, -⟩ := step_poll h; rw [hp] at hc; cases hc
  | yield =>
    obtain ⟨-, k, hp, -, rfl⟩ := step_yield h
    rw [hp, Pc.cont_run] at hc
    exact .inl (by simp [pc, Pc.cont, hc])
  | pass => exact absurd rfl ha
  | tick d => obtain ⟨-, rfl⟩ := step_tick h; exact .inl hc
  | irq t => obtain ⟨-, -, -, rfl⟩ := step_irq h; exact .inl hc

theorem pass_freed (s : Sys) {t : Tid} (h : s.Freed t) : s.pass.Freed t := by
  obtain ⟨l, hl, -⟩ := pass_log s
  simp only [Freed, hl, List.mem_append]; exact .inl h

/-- A pass that resumes a thread from its own `schedule()` reclaims every
exited thread; any other pass leaves the exited list alone. -/
theorem pass_exited_or_freed (hl : ListInv s) {t : Tid} (ht : t ∈ s.exited) :
    t ∈ s.pass.exited ∨ s.pass.Freed t := by
  cases hsel : s.selected with
  | none => rw [pass_none hsel]; exact .inl ht
  | some n =>
    have hn : n ∉ (s.handoff n).exited := hl.disjoint n (scan_mem hsel)
    rw [pass_some hsel]
    unfold resume
    split
    · right
      simp only [reap_eq hn, Freed, setPc_log, ← List.count_pos_iff, List.count_append,
        count_xfree_reapEvents, handoff_exited]
      exact Nat.lt_add_left _ (List.count_pos_iff.2 ht)
    · exact .inl ht
    · exact .inl ht

/-! ## The phases under a step -/

/-- **A pass** only wakes threads, and reclaims exited threads other than the
one it resumes. -/
theorem phase_pass (hl : ListInv s) (t : Tid) :
    Phase.Move (decide (t = s.pass.cur)) (s.phase t) (s.pass.phase t) := by
  obtain ⟨he, hf⟩ := hl.pass_lists
  unfold phase
  rw [pass_nextTid, pass_cont s t]
  refine Phase.of_pass _ _ (fun h => decide_eq_true (pass_freed s (of_decide_eq_true h)))
    (fun h1 h2 => ?_) (fun h => decide_eq_true (he t (of_decide_eq_true h)))
    (fun h => (pass_exited_or_freed hl (of_decide_eq_true h)).imp decide_eq_true decide_eq_true)
    (pass_isRunnable s)
  obtain ⟨h3, h4, -⟩ := hf t (of_decide_eq_false h1) (of_decide_eq_true h2)
  exact ⟨decide_eq_true h3, decide_eq_false h4⟩

/-- **A step of another thread's code** may create the thread, or wake it. -/
theorem phase_other (hl : ListInv s) (ha : a ≠ .pass) (h : step s a = some s') {t : Tid} (ht : t ≠ s.cur) :
    Phase.Move false (s.phase t) (s'.phase t) := by
  obtain ⟨hF, hE, -⟩ := lists_of_ne_pass hl ha h
  have hf := segFrame_of_step hl.cur_lt.ne ha h
  by_cases hn : t = s.nextTid
  · subst hn
    rcases hf.next with ⟨hN, -⟩ | ⟨hN, hfr⟩
    · unfold phase; rw [hN]; simp only [le_refl, decide_True, Phase.of, if_true]; exact .stay _ _
    · have hnf : ¬s'.Freed s.nextTid := fun h' => lt_irrefl _ (hl.freed_lt _ ((hF _).1 h'))
      have hne : s.nextTid ∉ s'.exited := fun h' => lt_irrefl _ (hl.exited_lt _ ((hE _ ht).1 h'))
      have hg : (s'.pc s.nextTid).cont ≠ .exitGate := by rcases hfr.pc with hp | hp <;> simp [pc, hp, Pc.cont]
      unfold phase
      simp only [hN, hnf, hne, hg, hfr.runnable, le_refl, decide_True, decide_False, Phase.of, if_true,
        Bool.false_eq_true, if_false, Nat.not_succ_le_self]
      exact .create
  · have hu : s'.nextTid ≤ t ↔ s.nextTid ≤ t := by
      rcases hf.next with ⟨hN, -⟩ | ⟨hN, -⟩
      · rw [hN]
      · rw [hN]; exact ⟨Nat.le_of_succ_le, fun h => Nat.lt_of_le_of_ne h (Ne.symm hn)⟩
    have hpc : s'.pc t = s.pc t := by simp only [pc, hf.ctx t ht hn]
    unfold phase
    rw [decide_eq_decide.2 hu, decide_eq_decide.2 (hF t), decide_eq_decide.2 (hE t ht), hpc]
    exact Phase.of_other _ _ _ _ (hf.th t ht hn).isRunnable

/-- **A step of the thread's own code** may block it, wake it, take it into
the gate or onto the exited list, and nothing else. -/
theorem phase_self (hl : ListInv s) (ha : a ≠ .pass) (h : step s a = some s') :
    Phase.Move true (s.phase s.cur) (s'.phase s.cur) := by
  obtain ⟨hF, -, hE⟩ := lists_of_ne_pass hl ha h
  have hf := segFrame_of_step hl.cur_lt.ne ha h
  have hlt : s.cur < s.nextTid := hl.cur_lt
  have hlt' : s.cur < s'.nextTid := by
    rcases hf.next with ⟨hN, -⟩ | ⟨hN, -⟩ <;> rw [hN]
    exacts [hlt, Nat.lt_succ_of_lt hlt]
  unfold phase
  rw [decide_eq_false (Nat.not_le.2 hlt), decide_eq_false (Nat.not_le.2 hlt'), decide_eq_decide.2 (hF _)]
  refine Phase.of_self _ (fun h' => decide_eq_true (hE (of_decide_eq_true h'))) fun hg he' => ?_
  rcases exitGate_stays (of_decide_eq_true hg) ha h with h1 | h1
  · exact decide_eq_true h1
  · exact absurd (decide_eq_true h1) (by rw [he']; exact Bool.false_ne_true)

/-! ## Every step, every run -/

/-- **Every step follows the spec's state machine.** From every reachable
state, a step moves the phase of every thread by a move of `Phase.Move`, the
thread being `self` exactly when it is the one whose code runs the step: a
thread blocks itself, enters the gate of `exit_thread` and the exited list
only by its own code; it is created, and reclaimed by the reap loop, only by
another thread's; any thread, or the timeout branch, may wake it. -/
theorem phase_step (hr : Reachable s) (h : step s a = some s') (t : Tid) :
    Phase.Move (decide (t = s.actor s' a)) (s.phase t) (s'.phase t) := by
  have hl := listInv_of_reachable hr
  by_cases ha : a = .pass
  · subst ha
    obtain ⟨-, -, -, rfl⟩ := step_pass h
    rw [actor, if_pos rfl]
    exact phase_pass hl t
  · rw [actor, if_neg ha]
    by_cases ht : t = s.cur
    · subst ht
      rw [decide_eq_true rfl]
      exact phase_self hl ha h
    · rw [decide_eq_false ht]
      exact phase_other hl ha h ht

/-- At boot the idle thread blocks itself. -/
theorem phase_step_boot :
    init.phase 0 = .runnable ∧ ((step init .run).getD init).phase 0 = .waiting ∧
    Phase.Move (decide (0 = init.actor ((step init .run).getD init) .run)) (init.phase 0)
      (((step init .run).getD init).phase 0) :=
  ⟨by decide, by decide, phase_step .init (eq_some_getD (by decide)) 0⟩

/-- **No thread goes back.** Along every run from a reachable state, the phase
of every thread only moves forward: NEW, then RUNNABLE or WAITING, EXITING,
EXITED, REAPED. -/
theorem phase_run : ∀ {as : List Act} {s s' : Sys}, Reachable s → run s as = some s' →
    ∀ t, (s.phase t).rank ≤ (s'.phase t).rank
  | [], s, s', _, h, t => by
    simp only [run, Option.some.injEq] at h
    exact h ▸ le_rfl
  | a :: as, s, s', hr, h, t => by
    obtain ⟨s1, h1, h2⟩ := run_cons_eq_some.1 h
    exact (phase_step hr h1 t).rank_le.trans (phase_run (.step a hr h1) h2 t)

/-- From boot, the main thread exits; the idle thread, woken, reclaims it. -/
theorem phase_run_boot :
    ((run init [.run, .pass, .call .exitThread, .pass, .irq 0, .pass]).getD init).phase 1 = .reaped ∧
    (init.phase 1).rank ≤ (((run init [.run, .pass, .call .exitThread, .pass, .irq 0, .pass]).getD init).phase 1).rank :=
  ⟨by decide, phase_run .init (eq_some_getD (by decide)) 1⟩

end

end Sys
end RumpuserXen
