import RumpuserXen.Pump

/-
  The lazy start of the pump

  The first `rumpuser_bio` to find `bio_inited` clear takes `bio_mtx`, tests
  the flag again, sets it, drops the mutex and calls
  `create_thread("biopoll", ...)`. Every caller that finds the flag set,
  under the mutex or in the unlocked test before it, goes on to its
  submission. A caller may be descheduled outside the critical section, and
  so between dropping the mutex and `create_thread`.

  What is proved:
    1. `initStep`: a step sets `bio_inited` by the locked test of a caller
       that found it clear, creates the pump by that caller's
       `create_thread`, or leaves the lazy initialisation alone
       (`InitQuiet`);
    2. `LazyInit` holds in every reachable state (`lazyInit_of_reachable`):
       no pump is created before `bio_inited` is set, nor while the caller
       that set it has not reached `create_thread`, and one is once it has;
    3. `biopoll_created_once` — `create_thread("biopoll", ...)` is called at
       most once over every run, only after `bio_inited` is set, and exactly
       once whenever the flag is set and no caller stands before that call;
    4. `passed_before_biopoll` — but a second caller can pass the lazy
       initialisation through the unlocked test, while the first stands
       before `create_thread`: at that point no pump exists.
-/

namespace RumpuserXen

/-- `create_thread("biopoll", NULL, biothread, NULL, NULL)`: a thread created
at the entry of `biothread`. -/
def Event.isPumpCreate : Event → Bool
  | .created _ .pumpStart _ => true
  | _ => false

theorem Event.eq_of_isPumpCreate {e : Event} (h : e.isPumpCreate = true) :
    ∃ t j, e = .created t .pumpStart j := by
  unfold Event.isPumpCreate at h
  split at h
  · exact ⟨_, _, rfl⟩
  · cases h

theorem Event.kind_of_isPumpCreate {e : Event} (h : e.isPumpCreate = true) : e.kind = .created .pumpStart := by
  obtain ⟨t, j, rfl⟩ := Event.eq_of_isPumpCreate h; rfl

namespace Sys

/-- The calls of `create_thread("biopoll", ...)` so far. -/
def pumpCreates (s : Sys) : Nat := s.log.countP Event.isPumpCreate

/-- Thread `t` has set `bio_inited` and dropped `bio_mtx`, and stands before
its `create_thread("biopoll", ...)`. -/
def spawning (s : Sys) (t : Tid) : Bool := (s.pc t).cont.isSpawn

section
variable {s s' : Sys}

/-! ## Steps that leave the lazy initialisation alone -/

/-- A step that leaves `bio_inited`, the calls of `create_thread("biopoll", ...)`
and the threads about to make one as they were. -/
structure InitQuiet (s s' : Sys) : Prop where
  inited : s'.bio.inited = s.bio.inited
  creates : s'.pumpCreates = s.pumpCreates
  cur : s'.spawning s.cur = s.spawning s.cur
  conts : ∀ t, t ≠ s.cur → (s'.pc t).cont = (s.pc t).cont

theorem InitQuiet.spawning (hq : InitQuiet s s') (t : Tid) : s'.spawning t = s.spawning t := by
  by_cases ht : t = s.cur
  · subst ht; exact hq.cur
  · simp only [Sys.spawning, hq.conts t ht]

/-- Code that leaves `bio_inited` alone, creates no pump, and neither stands
before nor ends before a `create_thread("biopoll", ...)` leaves the lazy
initialisation alone. -/
theorem Footprint.initQuiet {w : Writes} (hf : Footprint w s s') (hi : w.inited = false)
    (he : .created .pumpStart ∉ w.emits) (hs : (s.pc s.cur).cont.isSpawn = false)
    (hd : ∀ p ∈ w.ends, p.cont.isSpawn = false) (hc : ∀ k, w.create = some k → (s.pc s.nextTid).cont = k) :
    InitQuiet s s' :=
  ⟨hf.inited hi, hf.countP_log fun e hp => by rw [Event.kind_of_isPumpCreate hp]; exact he,
    by simp only [spawning, hd _ hf.ends, hs], hf.cont_eq hc⟩

theorem initQuiet_call {c : Call} (hn : s.ctx s.nextTid = Ctx.start .user) (hpc : s.pc s.cur = .run .user)
    (h : s.call c = some s') : InitQuiet s s' := by
  refine (footprint_call hpc h).initQuiet ?_ ?_ (by simp [hpc, Cont.isSpawn]) ?_ (fun j hj => ?_) <;>
    cases c <;> simp_all [pc, Cont.isSpawn]

theorem initQuiet_cont {k : Cont} (hk : k.isSpawn = false) (hb : ∀ a, k ≠ .bioLock a)
    (hpc : s.pc s.cur = .run k) (h : s.cont k = some s') : InitQuiet s s' := by
  refine (footprint_cont hpc h).initQuiet ?_ ?_ (by simp [hpc, hk]) ?_ (fun j hj => ?_) <;>
    cases k <;> simp_all [Cont.isSpawn]

theorem initQuiet_pass (s : Sys) : InitQuiet s s.pass := by
  obtain ⟨l, hl, hs⟩ := pass_log s
  refine ⟨by rw [pass_bio], ?_, by simp only [spawning, pass_cont], fun t _ => pass_cont s t⟩
  simp only [pumpCreates, hl, List.countP_append, Nat.add_right_eq_self, List.countP_eq_zero]
  intro e he hp
  obtain ⟨t, j, rfl⟩ := Event.eq_of_isPumpCreate hp
  exact absurd (hs _ he) (by simp [Event.isSched])

/-! ## The locked test and `create_thread` -/

/-- **A step, seen from the lazy initialisation**: the locked test of a caller
that finds `bio_inited` clear, the `create_thread` of that caller, or a step
that leaves the initialisation alone. -/
theorem initStep (hn : s.ctx s.nextTid = Ctx.start .user) {a : Act} (h : step s a = some s') :
    (∃ b, s.pc s.cur = .run (.bioLock b) ∧ s.bio.inited = false ∧ s' = s.bioLock b) ∨
    (∃ b, s.pc s.cur = .run (.bioSpawn b) ∧ s' = s.bioSpawn b) ∨ InitQuiet s s' := by
  cases a with
  | call c => obtain ⟨-, hpc, h⟩ := step_call h; exact .inr (.inr (initQuiet_call hn hpc h))
  | run =>
    obtain ⟨-, k, hpc, h⟩ := step_run h
    by_cases hk : ∃ b, k = .bioLock b ∨ k = .bioSpawn b
    · obtain ⟨b, rfl | rfl⟩ := hk <;> simp only [cont, Option.some.injEq] at h <;> subst h
      · cases hi : s.bio.inited
        · exact .inl ⟨b, hpc, rfl, rfl⟩
        · simp only [pc] at hpc
          exact .inr (.inr ⟨by simp [bioLock, hi], by simp [bioLock, hi, pumpCreates],
            by simp [bioLock, hi, spawning, pc, hpc, Cont.isSpawn], fun t ht => by simp [bioLock, hi, pc, ht]⟩)
      · exact .inr (.inl ⟨b, hpc, rfl⟩)
    · push_neg at hk
      exact .inr (.inr (initQuiet_cont (by cases k <;> simp_all [Cont.isSpawn]) (fun b => (hk b).1) hpc h))
  | initDone res =>
    obtain ⟨-, num, c, hpc, rfl⟩ := step_initDone h
    exact .inr (.inr ((footprint_devopenDone hpc).initQuiet rfl (by decide) (by simp [hpc, Cont.isSpawn])
      (by simp [Writes.devopenDone, Cont.isSpawn]) nofun))
  | poll cs =>
    obtain ⟨-, hpc, rfl⟩ := step_poll h
    exact .inr (.inr ((footprint_poll hpc cs).initQuiet rfl (by decide) (by simp [hpc, Cont.isSpawn])
      (by simp [Writes.poll, Cont.isSpawn]) nofun))
  | yield =>
    obtain ⟨-, k, hpc, -, rfl⟩ := step_yield h
    simp only [pc] at hpc
    exact .inr (.inr ⟨rfl, rfl, by simp [spawning, pc, hpc], fun t ht => by simp [pc, ht]⟩)
  | pass => obtain ⟨-, -, -, rfl⟩ := step_pass h; exact .inr (.inr (initQuiet_pass s))
  | tick n => obtain ⟨-, rfl⟩ := step_tick h; exact .inr (.inr ⟨rfl, rfl, rfl, fun _ _ => rfl⟩)
  | irq t => obtain ⟨-, -, -, rfl⟩ := step_irq h; exact .inr (.inr ⟨rfl, rfl, rfl, fun _ _ => rfl⟩)

/-- The locked test that finds `bio_inited` clear sets it, and the caller
stands before `create_thread`. -/
theorem bioLock_clear {b : BioArgs} (hi : s.bio.inited = false) :
    (s.bioLock b).bio.inited = true ∧ (s.bioLock b).pumpCreates = s.pumpCreates ∧
      (s.bioLock b).spawning s.cur = true := by
  simp [bioLock, hi, pumpCreates, spawning, pc, Cont.isSpawn]

/-- `create_thread("biopoll", ...)`: one call more, and its caller goes on to
the submission. -/
theorem bioSpawn_creates {b : BioArgs} :
    (s.bioSpawn b).bio.inited = s.bio.inited ∧ (s.bioSpawn b).pumpCreates = s.pumpCreates + 1 ∧
      ∀ t, (s.bioSpawn b).spawning t = true → t ≠ s.cur ∧ s.spawning t = true := by
  refine ⟨rfl, by simp [bioSpawn, pumpCreates, Event.isPumpCreate], fun t ht => ?_⟩
  by_cases hc : t = s.cur
  · subst hc; simp [bioSpawn, spawning, pc, Cont.isSpawn] at ht
  · by_cases hnt : t = s.nextTid
    · subst hnt; simp [bioSpawn, spawning, pc, hc, Cont.isSpawn, Ctx.start] at ht
    · exact ⟨hc, by simpa [bioSpawn, spawning, pc, hc, hnt] using ht⟩

/-! ## At most one pump -/

/-- No pump before `bio_inited` is set, nor while the caller that set it
stands before `create_thread`; one after. -/
structure LazyInit (s : Sys) : Prop where
  not_inited : s.bio.inited = false → s.pumpCreates = 0
  spawning : ∀ t, s.spawning t = true → s.pumpCreates = 0
  spawned : s.bio.inited = true → (∀ t, s.spawning t = false) → s.pumpCreates = 1

theorem lazyInit_init : LazyInit init where
  not_inited _ := rfl
  spawning _ _ := rfl
  spawned h := by simp [init, Bio.init] at h

theorem LazyInit.quiet (hi : LazyInit s) (hq : InitQuiet s s') : LazyInit s' where
  not_inited h := hq.creates ▸ hi.not_inited (hq.inited ▸ h)
  spawning t h := hq.creates ▸ hi.spawning t (hq.spawning t ▸ h)
  spawned h h' := hq.creates ▸ hi.spawned (hq.inited ▸ h) fun t => hq.spawning t ▸ h' t

theorem LazyInit.preserved (hi : LazyInit s) (ho : PumpOne s) (hu : Unborn s) {a : Act}
    (h : step s a = some s') : LazyInit s' := by
  rcases initStep (hu _ le_rfl) h with ⟨b, -, hin, rfl⟩ | ⟨b, hpc, rfl⟩ | hq
  · obtain ⟨h1, h2, h3⟩ := bioLock_clear (b := b) hin
    have h0 := hi.not_inited hin
    refine ⟨fun h => ?_, fun _ _ => h2.trans h0, fun _ h => absurd (h s.cur) (by simp [h3])⟩
    rw [h1] at h; cases h
  · obtain ⟨h1, h2, h3⟩ := bioSpawn_creates (s := s) (b := b)
    have hs : s.holder s.cur = true := by simp [holder, hpc, Cont.isSpawn]
    have hin : s.bio.inited = true := by
      by_contra hn; simp [ho.not_inited (by simpa using hn) s.cur] at hs
    have hnone : ∀ t, (s.bioSpawn b).spawning t = false := fun t => Bool.eq_false_iff.2 fun ht => by
      obtain ⟨hne, ht'⟩ := h3 t ht
      exact hne (ho.unique t s.cur (by simp [holder, Sys.spawning] at ht' ⊢; simp [ht']) hs)
    have h0 := hi.spawning s.cur (by simp [Sys.spawning, hpc, Cont.isSpawn])
    refine ⟨fun h => ?_, fun t ht => ?_, fun _ _ => by rw [h2, h0]⟩
    · rw [h1, hin] at h; cases h
    · simp [hnone t] at ht
  · exact hi.quiet hq

theorem lazyInit_of_reachable (h : Reachable s) : LazyInit s := by
  induction h with
  | init => exact lazyInit_init
  | step a hs hst ih => exact ih.preserved (pumpOne_of_reachable hs) (unborn_of_reachable hs) hst

/-- **`create_thread("biopoll", ...)` is called at most once.** In every
reachable state it has been called at most once; not at all while
`bio_inited` is clear; and exactly once when the flag is set and no caller
of `rumpuser_bio` stands between dropping `bio_mtx` and that call. -/
theorem biopoll_created_once (h : Reachable s) :
    s.pumpCreates ≤ 1 ∧ (s.bio.inited = false → s.pumpCreates = 0) ∧
    (s.bio.inited = true → (∀ t, s.spawning t = false) → s.pumpCreates = 1) := by
  have hi := lazyInit_of_reachable h
  refine ⟨?_, hi.not_inited, hi.spawned⟩
  cases hin : s.bio.inited
  · rw [hi.not_inited hin]; omega
  · by_cases hsp : ∃ t, s.spawning t = true
    · obtain ⟨t, ht⟩ := hsp
      rw [hi.spawning t ht]; omega
    · push_neg at hsp
      rw [hi.spawned hin fun t => by simpa using hsp t]

/-- From boot, the main thread submits a request: it sets `bio_inited` and
creates the pump. -/
theorem biopoll_created_once_boot :
    ((run init [.run, .pass, .call (.bio ⟨64, 0, 0, 512, 0, 0, 0⟩), .run, .run, .run]).getD init).pumpCreates = 1 ∧
    (((run init [.run, .pass, .call (.bio ⟨64, 0, 0, 512, 0, 0, 0⟩), .run, .run, .run]).getD init).pumpCreates ≤ 1 ∧
      (((run init [.run, .pass, .call (.bio ⟨64, 0, 0, 512, 0, 0, 0⟩), .run, .run, .run]).getD init).bio.inited =
          false →
        ((run init [.run, .pass, .call (.bio ⟨64, 0, 0, 512, 0, 0, 0⟩), .run, .run, .run]).getD init).pumpCreates =
          0) ∧
      (((run init [.run, .pass, .call (.bio ⟨64, 0, 0, 512, 0, 0, 0⟩), .run, .run, .run]).getD init).bio.inited =
          true →
        (∀ t, ((run init [.run, .pass, .call (.bio ⟨64, 0, 0, 512, 0, 0, 0⟩), .run, .run, .run]).getD
          init).spawning t = false) →
        ((run init [.run, .pass, .call (.bio ⟨64, 0, 0, 512, 0, 0, 0⟩), .run, .run, .run]).getD init).pumpCreates =
          1)) :=
  ⟨by decide, biopoll_created_once (reachable_getD _)⟩

/-- **A caller passes the lazy initialisation before the pump exists.** From
boot, the main thread creates a second thread and calls `rumpuser_bio`; it
sets `bio_inited`, drops `bio_mtx` and is descheduled before
`create_thread`. The second thread calls `rumpuser_bio`, finds the flag set
in the unlocked test, and stands at its submission: it has passed the lazy
initialisation, and `create_thread("biopoll", ...)` has not been called. -/
theorem passed_before_biopoll :
    ∃ s, Reachable s ∧ s.bio.inited = true ∧ (∃ t a, s.pc t = .run (.bioSubmit a)) ∧ s.pumpCreates = 0 := by
  obtain ⟨s, hs, hp⟩ := reach_of_run
    (l := [.run, .pass, .call (.createThread none 0 false), .call (.bio ⟨64, 0, 0, 512, 0, 0, 0⟩), .run, .run,
      .yield, .pass, .yield, .pass, .call (.bio ⟨64, 0, 0, 512, 0, 0, 0⟩), .run])
    (p := fun s => s.bio.inited && s.pc 2 == .run (.bioSubmit ⟨64, 0, 0, 512, 0, 0, 0⟩) && s.pumpCreates == 0)
    (by decide)
  simp only [Bool.and_eq_true, beq_iff_eq] at hp
  exact ⟨s, hs, hp.1.1, ⟨2, _, hp.1.2⟩, hp.2⟩

end

end Sys
end RumpuserXen
