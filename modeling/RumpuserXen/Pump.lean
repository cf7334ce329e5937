import RumpuserXen.Requests

/-
  The pump and `bio_cv`

  `biothread` (the pump), created by the first `rumpuser_bio` to pass the
  locked test of `bio_inited`, waits on `bio_cv` while
  `bio_outstanding_total` is zero; `rumpuser_bio` counts its request and
  signals `bio_cv`, under `bio_mtx`. The wait releases `bio_mtx` and parks
  the pump in one step, so no signal falls between the pump's test and its
  wait.

  What is proved:
    1. `PumpOne` holds in every reachable state (`pumpOne_of_reachable`): at
       most one thread is the pump or about to create it, and none is before
       `bio_inited` is set;
    2. `CvInv` holds in every reachable state (`cvInv_of_reachable`): `bio_cv`
       has at most one waiter, the pump at its wait; while it has one,
       nothing is outstanding; and a thread parked at the wait that is not
       runnable is a waiter;
    3. `pump_sleeps_idle` — the pump is a waiter of `bio_cv`, or sleeps at
       its wait, only while `bio_outstanding_total` is zero.
-/

namespace RumpuserXen

theorem Cont.inBio_eq_false {k : Cont} (h : k.inBio = false) : k.isPump = false ∧ k.isSpawn = false := by
  cases k <;> simp_all [inBio, isPump, isSpawn]

theorem Touch.eq_of_not_runnable {a b : Thread} (ht : Touch a b) (hr : b.isRunnable = false) : b = a := by
  cases ht <;> simp_all

namespace Sys

/-- Thread `t` is the pump, or is about to create it. -/
def holder (s : Sys) (t : Tid) : Bool := (s.pc t).cont.isPump || (s.pc t).cont.isSpawn

/-- At most one pump, made once `bio_inited` is set. -/
structure PumpOne (s : Sys) : Prop where
  unique : ∀ t u, s.holder t = true → s.holder u = true → t = u
  not_inited : s.bio.inited = false → ∀ t, s.holder t = false

/-- The waiters of `bio_cv`. -/
structure CvInv (s : Sys) : Prop where
  waiters : ∀ p ∈ s.bio.cvWaiters, (s.pc p).cont = .pumpCv
  one : s.bio.cvWaiters.length ≤ 1
  idle : s.bio.cvWaiters ≠ [] → s.bio.total = 0
  /-- A thread parked at the wait that is not runnable is a waiter. -/
  parked : ∀ p, s.pc p = .sched .pumpCv → (s.th p).isRunnable = false → p ∈ s.bio.cvWaiters

section
variable {s s' : Sys}

/-! ## The blocking I/O poll leaves `bio_cv` alone -/

theorem aioPoll_cv (dev : Nat) : ∀ (cs : List (Nat × Int)) (s : Sys),
    (s.aioPoll dev cs).1.bio.cvWaiters = s.bio.cvWaiters ∧ (s.aioPoll dev cs).1.bio.inited = s.bio.inited
  | [], _ => ⟨rfl, rfl⟩
  | c :: cs, s => by
    simp only [aioPoll]
    split
    · exact aioPoll_cv dev cs _
    · exact aioPoll_cv dev cs s

theorem pollSlots_cv (cs : List (Nat × Int)) : ∀ (is : List Nat) (s : Sys) (did : Nat),
    (pollSlots cs is s did).1.bio.cvWaiters = s.bio.cvWaiters ∧
      (pollSlots cs is s did).1.bio.inited = s.bio.inited
  | [], _, _ => ⟨rfl, rfl⟩
  | i :: is, s, did => by
    simp only [pollSlots]
    split
    · split
      · exact ⟨rfl, rfl⟩
      · obtain ⟨h1, h2⟩ := aioPoll_cv _ cs s
        obtain ⟨h3, h4⟩ := pollSlots_cv cs is (s.aioPoll _ cs).1 (did + _)
        exact ⟨h3.trans h1, h4.trans h2⟩
    · exact pollSlots_cv cs is s did

theorem poll_cv (s : Sys) (cs : List (Nat × Int)) :
    (s.poll cs).bio.cvWaiters = s.bio.cvWaiters ∧ (s.poll cs).bio.inited = s.bio.inited := by
  have h := pollSlots_cv cs (List.range nblkdev) s 0
  dsimp only [poll]
  split
  · exact h
  · split <;> exact h

/-! ## One pump -/

theorem pumpOne_init : PumpOne init := by
  have h0 : ∀ t, init.holder t = false := fun t => by
    simp only [holder, init, pc]; split_ifs <;> rfl
  exact ⟨fun t u ht => absurd ht (by simp [h0]), fun _ t => h0 t⟩

theorem PumpOne.mono (hi : PumpOne s) (hu : ∀ u, s'.holder u = true → s.holder u = true)
    (hb : s'.bio.inited = false → s.bio.inited = false) : PumpOne s' :=
  ⟨fun t u ht hu' => hi.unique t u (hu t ht) (hu u hu'),
    fun hn t => Bool.eq_false_iff.2 fun ht => by simpa [hi.not_inited (hb hn) t] using hu t ht⟩

/-- A step of the current thread's code after which it is the pump, or about
to create it, only if it was before. -/
theorem PumpOne.cur (hi : PumpOne s) (hc : ∀ u, u ≠ s.cur → (s'.pc u).cont = (s.pc u).cont)
    (hh : s'.holder s.cur = true → s.holder s.cur = true)
    (hb : s'.bio.inited = false → s.bio.inited = false) : PumpOne s' :=
  hi.mono (fun u h => if hu : u = s.cur then hu ▸ hh (hu ▸ h) else by simpa [holder, hc u hu] using h) hb

theorem PumpOne.plain (hi : PumpOne s) (hp : Plain s s') : PumpOne s' :=
  hi.cur hp.conts (fun h => by simp [holder, hp.cur.1, hp.cur.2] at h) (by rw [hp.bio]; exact id)

/-- A step after which every pump, or thread about to create one, is `c`. -/
theorem PumpOne.single {c : Tid} (hu : ∀ u, s'.holder u = true → u = c)
    (hb : s'.bio.inited = false → ∀ u, s'.holder u = false) : PumpOne s' :=
  ⟨fun t u ht hu' => (hu t ht).trans (hu u hu').symm, hb⟩

theorem PumpOne.holder_eq (hi : PumpOne s) {t u : Tid} (ht : s.holder t = true) (hu : u ≠ t) :
    s.holder u = false :=
  Bool.eq_false_iff.2 fun h => hu (hi.unique u t h ht)

/-- The code of `rumpuser_bio` past its unlocked test, and of `biothread`. -/
theorem PumpOne.cont (hi : PumpOne s) {k : Cont} (hpc : s.pc s.cur = .run k) (h : s.cont k = some s') :
    PumpOne s' := by
  cases hk : k.inBio
  · exact hi.plain (plain_cont hk hpc h)
  have hcur : s.holder s.cur = (k.isPump || k.isSpawn) := by simp [holder, hpc]
  simp only [pc] at hpc
  cases k <;> (try simp only [Cont.inBio, Cont.isPump, reduceCtorEq] at hk) <;>
    simp only [Sys.cont, Option.some.injEq, reduceCtorEq] at h <;> subst h
  case bioLock a =>
    unfold bioLock
    split
    · next hn =>
      have h0 := hi.not_inited (by simpa using hn)
      refine .single (c := s.cur) (fun u hu' => ?_) (by simp)
      by_contra hne
      have := h0 u
      simp only [holder, pc, Bool.or_eq_false_iff] at this
      simp [holder, pc, hne, this] at hu'
    · exact hi.cur (by simp +contextual [pc]) (by simp [holder, pc, Cont.isPump, Cont.isSpawn]) (by simp)
  case bioSpawn a =>
    have hc : s.holder s.cur = true := by simp [hcur, Cont.isSpawn]
    have hinit : s.bio.inited = true := by
      by_contra hn; simp [hi.not_inited (by simpa using hn) s.cur] at hc
    refine .single (c := s.nextTid) (fun u hu' => ?_) (fun hn => by simp [bioSpawn, hinit] at hn)
    · by_contra hne
      by_cases huc : u = s.cur
      · subst huc; simp [bioSpawn, holder, pc, Cont.isPump, Cont.isSpawn] at hu'
      · have := hi.holder_eq hc huc
        simp [bioSpawn, holder, pc, huc, hne] at hu' this
        simp_all
  case bioSubmit a =>
    dsimp only [bioSubmit]
    split
    · exact hi.cur (by simp [pc]) (by simp [holder, pc, hpc, Cont.isPump, Cont.isSpawn]) (by simp)
    · split
      · exact hi.cur (by simp [pc]) (by simp [holder, pc, hpc, Cont.isPump, Cont.isSpawn]) (by simp)
      · exact hi.cur (by simp +contextual [pc]) (by simp [holder, pc, Cont.isPump, Cont.isSpawn])
          (by simp)
  case pumpResave => exact hi.cur (by simp +contextual [pc]) (fun _ => by simp [hcur, Cont.isPump]) (by simp)
  all_goals
    exact hi.cur (by simp +contextual [pumpWait, pc]; (repeat' split) <;> simp +contextual)
      (fun _ => by simp [hcur, Cont.isPump]) (by simp [pumpWait]; (repeat' split) <;> simp)

theorem PumpOne.preserved (hi : PumpOne s) (hu : Unborn s) {a : Act} (h : step s a = some s') :
    PumpOne s' := by
  cases a with
  | call c =>
    obtain ⟨-, hpc, h⟩ := step_call h
    exact hi.plain (plain_call (hu _ le_rfl) hpc h)
  | run => obtain ⟨-, k, hpc, h⟩ := step_run h; exact hi.cont hpc h
  | initDone res => obtain ⟨-, num, c, hpc, rfl⟩ := step_initDone h; exact hi.plain (plain_devopenDone hpc)
  | poll cs =>
    obtain ⟨-, hpc, rfl⟩ := step_poll h
    obtain ⟨b, l, hh, hs, -, -⟩ := pollSlots_frame cs (List.range nblkdev) s 0
    refine hi.cur (fun u hu => ?_) (fun _ => by simp [holder, hpc, Cont.isPump])
      (by rw [(poll_cv s cs).2]; exact id)
    simp only [poll, hs]
    (repeat' split) <;> simp [pc, hu]
  | yield =>
    obtain ⟨-, k, hpc, -, rfl⟩ := step_yield h
    simp only [pc] at hpc
    exact hi.cur (by simp +contextual [pc]) (by simp [holder, pc, hpc]) id
  | pass =>
    obtain ⟨-, -, -, rfl⟩ := step_pass h
    refine hi.mono (fun u hu => ?_) (by rw [pass_bio]; exact id)
    by_cases hn : s.selected = some u
    · simpa [holder, pass_pc_selected hn] using hu
    · simpa [holder, pc, pass_ctx s hn] using hu
  | tick d => obtain ⟨-, rfl⟩ := step_tick h; exact ⟨hi.1, hi.2⟩
  | irq t => obtain ⟨-, -, -, rfl⟩ := step_irq h; exact ⟨hi.1, hi.2⟩

theorem pumpOne_of_reachable (h : Reachable s) : PumpOne s := by
  induction h with
  | init => exact pumpOne_init
  | step a hs hst ih => exact ih.preserved (unborn_of_reachable hs) hst

/-! ## The waiters of `bio_cv` -/

theorem cvInv_init : CvInv init where
  waiters := by simp [init, Bio.init]
  one := by simp [init, Bio.init]
  idle := by simp [init, Bio.init]
  parked p := by simp only [init, pc]; split_ifs <;> simp [Ctx.start]

/-- Every waiter of `bio_cv` is the pump: `t`, if `t` is the pump or about to
create it. -/
theorem CvInv.eq_of_holder (hi : CvInv s) (ho : PumpOne s) {t : Tid} (ht : s.holder t = true) :
    ∀ p ∈ s.bio.cvWaiters, p = t :=
  fun p hp => ho.unique p t (by simp [holder, hi.waiters p hp, Cont.isPump]) ht

/-- No waiter while the pump runs, or is about to be created, away from the
wait. -/
theorem CvInv.nil_of_holder (hi : CvInv s) (ho : PumpOne s) {t : Tid} (ht : s.holder t = true)
    (hk : (s.pc t).cont ≠ .pumpCv) : s.bio.cvWaiters = [] :=
  List.eq_nil_iff_forall_not_mem.2 fun p hp => hk (hi.eq_of_holder ho ht p hp ▸ hi.waiters p hp)

/-- A thread other than the current one, parked at the wait and not runnable
after a step, was so before, a waiter. -/
theorem CvInv.other (hi : CvInv s) (hf : SegFrame s s') (hn : s.ctx s.nextTid = Ctx.start .user)
    {p : Tid} (hp : p ≠ s.cur) (hpc : s'.pc p = .sched .pumpCv) (hr : (s'.th p).isRunnable = false) :
    p ∈ s.bio.cvWaiters ∧ s'.th p = s.th p := by
  by_cases hpn : p = s.nextTid
  · subst hpn
    rcases hf.next with ⟨-, hctx, -⟩ | ⟨-, hfr⟩
    · simp [pc, hctx, hn, Ctx.start] at hpc
    · rcases hfr.pc with h | h <;> simp [pc, h] at hpc
  · have ht := (hf.th p hp hpn).eq_of_not_runnable hr
    have hpc' : s.pc p = .sched .pumpCv := by rwa [pc, ← hf.ctx p hp hpn]
    exact ⟨hi.parked p hpc' (ht ▸ hr), ht⟩

/-- A waiter of `bio_cv` other than the current thread stays at the wait. -/
theorem CvInv.waiter_other (hi : CvInv s) (hf : SegFrame s s') (hn : s.ctx s.nextTid = Ctx.start .user)
    {p : Tid} (hp : p ∈ s.bio.cvWaiters) (hpc : p ≠ s.cur) : (s'.pc p).cont = .pumpCv := by
  have hpn : p ≠ s.nextTid := fun e => by simpa [e, pc, hn, Ctx.start] using hi.waiters p hp
  rw [pc, hf.ctx p hpc hpn]; exact hi.waiters p hp

/-- A step after which `bio_cv` has no waiter, or has the current thread
alone, parked with nothing outstanding, and after which every former waiter
other than the current thread is runnable. -/
theorem CvInv.of_cur (hi : CvInv s) (hf : SegFrame s s') (hn : s.ctx s.nextTid = Ctx.start .user)
    (hsub : ∀ p ∈ s.bio.cvWaiters, p ≠ s.cur → (s'.th p).isRunnable = true)
    (hw : s'.bio.cvWaiters = [] ∨ s'.bio.cvWaiters = [s.cur] ∧ s'.pc s.cur = .sched .pumpCv ∧ s'.bio.total = 0)
    (hcur : s'.pc s.cur = .sched .pumpCv → (s'.th s.cur).isRunnable = false → s.cur ∈ s'.bio.cvWaiters) :
    CvInv s' where
  waiters p hp := by
    rcases hw with hw | ⟨hw, hpc, -⟩ <;> simp only [hw, List.mem_singleton, List.not_mem_nil] at hp
    rw [hp, hpc]; rfl
  one := by rcases hw with hw | ⟨hw, -⟩ <;> simp [hw]
  idle := by
    rcases hw with hw | ⟨-, -, ht⟩
    · simp [hw]
    · exact fun _ => ht
  parked p hpc hr := by
    by_cases hp : p = s.cur
    · exact hp ▸ hcur (hp ▸ hpc) (hp ▸ hr)
    · have := hsub p (hi.other hf hn hp hpc hr).1 hp
      simp [hr] at this

/-- A step after which the current thread, not a waiter, is not parked at the
wait, and which leaves the waiters and the total alone. -/
theorem CvInv.keep (hi : CvInv s) (hf : SegFrame s s') (hn : s.ctx s.nextTid = Ctx.start .user)
    (hw : s'.bio.cvWaiters = s.bio.cvWaiters) (ht : s'.bio.total = s.bio.total)
    (hnot : s.cur ∉ s.bio.cvWaiters) (hcur : s'.pc s.cur ≠ .sched .pumpCv) : CvInv s' where
  waiters p h := by
    rw [hw] at h; exact hi.waiter_other hf hn h fun e => hnot (e ▸ h)
  one := by rw [hw]; exact hi.one
  idle := by rw [hw, ht]; exact hi.idle
  parked p hpc hr := by
    rw [hw]
    by_cases hp : p = s.cur
    · exact absurd (hp ▸ hpc) hcur
    · exact (hi.other hf hn hp hpc hr).1

theorem CvInv.not_waiter (hi : CvInv s) {t : Tid} (ht : (s.pc t).cont.isPump = false) :
    t ∉ s.bio.cvWaiters :=
  fun h => by simp [hi.waiters t h, Cont.isPump] at ht

theorem CvInv.plain (hi : CvInv s) (hp : Plain s s') (hf : SegFrame s s') (hn : s.ctx s.nextTid = Ctx.start .user)
    (hcur : (s.pc s.cur).cont.isPump = false) : CvInv s' :=
  hi.keep hf hn (by rw [hp.bio]) (by rw [hp.bio]) (hi.not_waiter hcur)
    fun h => by simpa [h, Cont.isPump] using hp.cur.1

/-- `pumpWait` with no waiter: the pump waits, with nothing outstanding, or polls. -/
theorem pumpWait_cv (hw : s.bio.cvWaiters = []) :
    (s.pumpWait.bio.cvWaiters = [] ∨
      s.pumpWait.bio.cvWaiters = [s.cur] ∧ s.pumpWait.pc s.cur = .sched .pumpCv ∧ s.pumpWait.bio.total = 0) ∧
    (s.pumpWait.pc s.cur = .sched .pumpCv → (s.pumpWait.th s.cur).isRunnable = false →
      s.cur ∈ s.pumpWait.bio.cvWaiters) := by
  unfold pumpWait
  split <;> simp_all [pc]

theorem CvInv.pass (hi : CvInv s) : CvInv s.pass where
  waiters p hp := by
    rw [pass_bio] at hp
    by_cases hn : s.selected = some p
    · rw [pass_pc_selected hn]; exact hi.waiters p hp
    · rw [pc, pass_ctx s hn]; exact hi.waiters p hp
  one := by rw [pass_bio]; exact hi.one
  idle := by rw [pass_bio]; exact hi.idle
  parked p hpc hr := by
    rw [pass_bio]
    have hn : s.selected ≠ some p := fun hn => by simp [pass_pc_selected hn] at hpc
    rw [pass_th, scan_th_ne hn] at hr
    rw [pc, pass_ctx s hn] at hpc
    exact hi.parked p hpc hr

/-- `rumpuser_bio`'s stretch under `bio_mtx`: a `BUG`, or the request counted
and `bio_cv` signalled, which unparks its one waiter. -/
theorem bioSubmit_cases (s : Sys) (a : BioArgs) : (∃ b, s.bioSubmit a = s.halt b) ∨
    ∃ s1 : Sys, s.bioSubmit a = s1.cvSignal.back ∧ s1.ctx = s.ctx ∧ s1.th = s.th ∧ s1.cur = s.cur ∧
      s1.bio.cvWaiters = s.bio.cvWaiters := by
  dsimp only [bioSubmit]
  split
  · exact .inl ⟨_, rfl⟩
  · split
    · exact .inl ⟨_, rfl⟩
    · exact .inr ⟨_, rfl, rfl, rfl, rfl, rfl⟩

/-- The code of `rumpuser_bio` past its unlocked test, and of `biothread`. -/
theorem CvInv.cont (hi : CvInv s) (ho : PumpOne s) (hf : SegFrame s s') (hn : s.ctx s.nextTid = Ctx.start .user)
    {k : Cont} (hpc : s.pc s.cur = .run k) (h : s.cont k = some s') : CvInv s' := by
  cases hk : k.inBio
  · exact hi.plain (plain_cont hk hpc h) hf hn (by simpa [hpc] using (Cont.inBio_eq_false hk).1)
  have hcur : s.holder s.cur = (k.isPump || k.isSpawn) := by simp [holder, hpc]
  have hnw : k.isPump = true → k ≠ .pumpCv → s.bio.cvWaiters = [] := fun hp hk' =>
    hi.nil_of_holder ho (t := s.cur) (by simp [hcur, hp]) (by simpa [hpc] using hk')
  simp only [pc] at hpc
  cases k <;> (try simp only [Cont.inBio, Cont.isPump, reduceCtorEq] at hk) <;>
    simp only [Sys.cont, Option.some.injEq, reduceCtorEq] at h <;> subst h
  case bioLock a =>
    exact hi.keep hf hn (by unfold bioLock; split <;> rfl) (by unfold bioLock; split <;> rfl)
      (hi.not_waiter (by simp [pc, hpc, Cont.isPump])) (by unfold bioLock; split <;> simp [pc])
  case bioSpawn a =>
    exact hi.keep hf hn rfl rfl (hi.not_waiter (by simp [pc, hpc, Cont.isPump])) (by simp [bioSpawn, pc])
  case bioSubmit a =>
    have hnot := hi.not_waiter (t := s.cur) (by simp [pc, hpc, Cont.isPump])
    rcases bioSubmit_cases s a with ⟨b, e⟩ | ⟨s1, e, hctx, hth, hc1, hw1⟩ <;> rw [e] at hf ⊢
    · exact hi.keep hf hn rfl rfl hnot (by simp [pc, hpc])
    · have hw : s1.bio.cvWaiters.tail = [] := by
        have := hi.one; rw [← hw1] at this
        cases h : s1.bio.cvWaiters with
        | nil => rfl
        | cons p l => rw [h] at this; simp at this; simp [this]
      refine hi.of_cur hf hn (fun p hp _ => ?_) (.inl (by simp [hw])) (by simp [pc, hctx, hc1])
      rw [← hw1] at hp
      have : s1.bio.cvWaiters = [p] := by
        cases h : s1.bio.cvWaiters with
        | nil => simp [h] at hp
        | cons q l => rw [h] at hw hp; simp only [List.tail_cons] at hw; subst hw; simpa [eq_comm] using hp
      simp [this]
  case pumpCv =>
    have h1 : ∀ p ∈ s.bio.cvWaiters, p = s.cur := hi.eq_of_holder ho (t := s.cur) (by simp [hcur, Cont.isPump])
    have hw0 : (s.bio.cvWaiters.erase s.cur) = [] := by
      have := hi.one
      cases h : s.bio.cvWaiters with
      | nil => rfl
      | cons p l =>
        rw [h] at this h1
        obtain rfl : l = [] := List.length_eq_zero.1 (by simpa using this)
        simp [h1 p (by simp)]
    obtain ⟨hw, hc⟩ := pumpWait_cv (s := { s with bio := { s.bio with cvWaiters := s.bio.cvWaiters.erase s.cur } }) hw0
    exact hi.of_cur hf hn (fun p hp hne => absurd (h1 p hp) hne) hw hc
  case pumpResave =>
    have hw0 := hnw rfl (by simp)
    exact hi.of_cur hf hn (by simp [hw0]) (.inl (by simp [hw0])) (by simp [pc])
  all_goals
    have hw0 := hnw rfl (by simp)
    obtain ⟨hw, hc⟩ := pumpWait_cv hw0
    exact hi.of_cur hf hn (by simp [hw0]) hw hc

/-- A turn of the poll loop, which runs with no waiter and adds none. -/
theorem CvInv.poll (hi : CvInv s) (ho : PumpOne s) (hf : SegFrame s (s.poll cs))
    (hn : s.ctx s.nextTid = Ctx.start .user) (hpc : s.pc s.cur = .run .pumpPoll) : CvInv (s.poll cs) := by
  have hw0 := hi.nil_of_holder ho (t := s.cur) (by simp [holder, hpc, Cont.isPump]) (by simp [hpc])
  refine hi.of_cur hf hn (by simp [hw0]) (.inl (by rw [(poll_cv s cs).1, hw0])) fun h => ?_
  obtain ⟨b, l, hh, hs, -, -⟩ := pollSlots_frame cs (List.range nblkdev) s 0
  simp only [pc] at hpc
  simp only [Sys.poll, hs] at h
  split at h
  · simp [pc, hpc] at h
  · split at h <;> simp [pc] at h

theorem CvInv.preserved (hi : CvInv s) (ho : PumpOne s) (hl : ListInv s) (hu : Unborn s) {a : Act}
    (h : step s a = some s') : CvInv s' := by
  have hn := hu _ le_rfl
  by_cases ha : a = .pass
  · subst ha; obtain ⟨-, -, -, rfl⟩ := step_pass h; exact hi.pass
  have hf := segFrame_of_step (Nat.ne_of_lt hl.cur_lt) ha h
  cases a with
  | call c =>
    obtain ⟨-, hpc, h'⟩ := step_call h
    exact hi.plain (plain_call hn hpc h') hf hn (by simp [hpc, Cont.isPump])
  | run => obtain ⟨-, k, hpc, h'⟩ := step_run h; exact hi.cont ho hf hn hpc h'
  | initDone res =>
    obtain ⟨-, num, c, hpc, rfl⟩ := step_initDone h
    exact hi.plain (plain_devopenDone hpc) hf hn (by simp [hpc, Cont.isPump])
  | poll cs => obtain ⟨-, hpc, rfl⟩ := step_poll h; exact hi.poll ho hf hn hpc
  | yield =>
    obtain ⟨-, k, hpc, hy, rfl⟩ := step_yield h
    have hk : k.isPump = false := by cases k <;> simp_all [Cont.yieldable, Cont.isPump]
    exact hi.keep hf hn rfl rfl (hi.not_waiter (by simp [hpc, hk]))
      (by simp only [pc] at hpc ⊢; cases k <;> simp_all [Cont.isPump])
  | pass => exact absurd rfl ha
  | tick d => obtain ⟨-, rfl⟩ := step_tick h; exact ⟨hi.1, hi.2, hi.3, hi.4⟩
  | irq t =>
    obtain ⟨-, -, -, rfl⟩ := step_irq h
    refine ⟨hi.1, hi.2, hi.3, fun p hpc hr => hi.4 p hpc ?_⟩
    by_cases hp : p = t
    · subst hp; simp at hr
    · simpa [hp] using hr

theorem cvInv_of_reachable (h : Reachable s) : CvInv s := by
  induction h with
  | init => exact cvInv_init
  | step a hs hst ih =>
    exact ih.preserved (pumpOne_of_reachable hs) (listInv_of_reachable hs) (unborn_of_reachable hs) hst

/-- **No lost wake-up on `bio_cv`.** In every reachable state, where
`bio_mtx` is free, a waiter of `bio_cv` is the pump at its wait and nothing
is outstanding while it waits; and a thread that sleeps at the pump's wait,
parked and not runnable, does so only while `bio_outstanding_total` is zero. -/
theorem pump_sleeps_idle (h : Reachable s) :
    (∀ p ∈ s.bio.cvWaiters, (s.pc p).cont = .pumpCv ∧ s.bio.total = 0) ∧
      ∀ p, s.pc p = .sched .pumpCv → (s.th p).isRunnable = false → s.bio.total = 0 := by
  have hi := cvInv_of_reachable h
  have hz : ∀ p ∈ s.bio.cvWaiters, s.bio.total = 0 := fun p hp => hi.idle (List.ne_nil_of_mem hp)
  exact ⟨fun p hp => ⟨hi.waiters p hp, hz p hp⟩, fun p hpc hr => hz p (hi.parked p hpc hr)⟩

theorem pump_sleeps_idle_init :
    (∀ p ∈ init.bio.cvWaiters, (init.pc p).cont = .pumpCv ∧ init.bio.total = 0) ∧
      ∀ p, init.pc p = .sched .pumpCv → (init.th p).isRunnable = false → init.bio.total = 0 :=
  pump_sleeps_idle Reachable.init

end

end Sys
end RumpuserXen
