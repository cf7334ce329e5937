import RumpuserXen.System

/-
  Frames of a step

  A stretch of the current thread's code (every step but a pass of the
  selection loop) changes the context of no other thread, and the descriptor
  of another thread only by `wake`, or by `wake` after clearing its
  `THREAD_MUSTJOIN` (the end of `join_thread`); it may create one thread, at
  `nextTid`. What else it may write depends on where it starts: `Writes`
  lists, for each entry point (`Call.writes`), each point after a
  `schedule()` (`Cont.writes`), the end of `devopen` and the poll loop of
  `biothread`, the globals it may change, the events it may log and the
  points where it may leave the current thread. A pass changes the
  descriptor of the thread it selects, by the timeout branch of the scan, and
  the context of that thread, which resumes.

  What is proved:
    1. `footprint_call`, `footprint_cont`, `footprint_devopenDone` and
       `footprint_poll` — each stretch of code writes only what its `Writes`
       allows (`Footprint`), leaves the current thread's deadline and the
       event mask as sched.c pairs them (`SleepOk`, `IrqCur`), and stops at
       one of its end points. Each function of the code with branches has
       its own such lemma (`footprint_exitGate`, `footprint_joinThread`,
       `footprint_rumpuserOpen`, `footprint_pumpWait`, ...), from which the
       four are assembled. The per-module frame lemmas read their facts off
       these four, and unfold the code nowhere else;
    2. `segFrame_of_step`, for every step but a pass, and `pass_th`,
       `pass_ctx`, `pass_pc_selected`, `pass_cur`, `pass_nextTid`, `pass_bio`
       and `pass_log` for a pass. The per-thread invariants of the later
       modules rest on them, and look at the current thread, and at the
       thread a pass resumes, on their own.
-/

namespace RumpuserXen

/-- What a stretch of the current thread's code may do to the descriptor of
another thread: nothing, `wake` it, or `wake` it after clearing its
`THREAD_MUSTJOIN`. -/
inductive Touch (a : Thread) : Thread → Prop
  | keep : Touch a a
  | wake : Touch a a.wake
  | release : Touch a ({ a with flags := a.flags &&& ~~~threadMustjoin } : Thread).wake

attribute [simp] Touch.keep Touch.wake Touch.release

@[simp] theorem touch_update {a b : Thread} {f : Tid → Thread} {t u : Tid} :
    Touch a (Function.update f t b u) ↔ (u = t → Touch a b) ∧ (u ≠ t → Touch a (f u)) := by
  by_cases h : u = t
  · subst h; simp
  · simp [h]

@[simp] theorem touch_ite {a b c : Thread} {p : Prop} [Decidable p] :
    Touch a (if p then b else c) ↔ (p → Touch a b) ∧ (¬p → Touch a c) := by
  split <;> simp_all

/-- What other code does to a descriptor never clears its `RUNNABLE_FLAG`. -/
theorem Touch.isRunnable {a b : Thread} (ht : Touch a b) (h : a.isRunnable = true) : b.isRunnable = true := by
  cases ht <;> simp [h]

/-- The descriptor and context `create_thread` gives a thread: runnable, no
deadline, `THREAD_JOINED` clear, not started, at the entry of the rump
kernel's thread or of `biothread`. -/
structure Fresh (th : Thread) (c : Ctx) : Prop where
  runnable : th.isRunnable = true
  wakeup : th.wakeupTime = 0
  joined : hasFlag th.flags threadJoined = false
  pc : c.pc = .fresh .user ∨ c.pc = .fresh .pumpStart

/-- The events of a pass: the scheduler hook, `block_domain`, and the reap
loop's `free_pages` and `xfree`. -/
def Event.isSched : Event → Bool
  | .hook _ _ | .blockDomain _ | .freePages _ | .xfree _ => true
  | _ => false

/-- The points of a sleeper: `dosleep`, and the ABSMONO branch of
`rumpuser_clock_sleep`, each parked in its `schedule()`. -/
@[simp] def Pc.isSleep : Pc → Bool
  | .sched (.sleep _) | .sched .absmono => true
  | _ => false

/-- `RUNNABLE_FLAG` and `wakeup_time` of a thread, as they pair in every
reachable state: a deadline only on a sleeper that is not runnable. -/
def SleepOk (th : Thread) (p : Pc) : Prop :=
  th.wakeupTime ≠ 0 → th.isRunnable = false ∧ p.isSleep = true

/-! ## What a stretch of code may write -/

/-- What an event is, without its data; a creation carries the point where the
new thread starts. -/
inductive Event.Kind where
  | created (entry : Cont)
  | joinCall
  | joinReturn
  | setJoined
  | clearMustjoin
  | toExited
  | hook
  | blockDomain
  | freePages
  | xfree
  | printk
  | initBlkfront
  | initDone
  | shutdownBlkfront
  | bioSubmit
  | biocomp
  | biodone
  deriving DecidableEq, Repr

/-- The kind of an event. -/
@[simp] def Event.kind : Event → Event.Kind
  | .created _ k _ => .created k
  | .joinCall .. => .joinCall
  | .joinReturn .. => .joinReturn
  | .setJoined _ => .setJoined
  | .clearMustjoin .. => .clearMustjoin
  | .toExited _ => .toExited
  | .hook .. => .hook
  | .blockDomain _ => .blockDomain
  | .freePages _ => .freePages
  | .xfree _ => .xfree
  | .printk _ => .printk
  | .initBlkfront _ => .initBlkfront
  | .initDone .. => .initDone
  | .shutdownBlkfront _ => .shutdownBlkfront
  | .bioSubmit _ => .bioSubmit
  | .biocomp .. => .biocomp
  | .biodone .. => .biodone

/-- What a stretch of the current thread's code may write besides the
descriptor and the context of the current thread, the descriptors it may
`wake`, and the thread it may create: the globals, the kinds of events it may
log, and the points where it may leave the current thread. -/
structure Writes where
  hook : Bool := false
  blk : Bool := false
  inited : Bool := false
  /-- The request records and the counters. -/
  reqs : Bool := false
  cv : Bool := false
  joinwq : Bool := false
  /-- The run list and the exited list. -/
  lists : Bool := false
  /-- The thread it creates, at `nextTid`, starts at this point. -/
  create : Option Cont := none
  /-- The cookie of the current thread (`init_mainlwp`). -/
  cookie : Bool := false
  /-- `THREAD_JOINED` or `THREAD_MUSTJOIN` of some thread. -/
  joinFlags : Bool := false
  emits : List Event.Kind := []
  ends : List Pc

/-- What each entry point may write. -/
@[simp] def Call.writes : Call → Writes
  | .createThread .. =>
    { lists := true, create := some .user, joinFlags := true, emits := [.created .user], ends := [.run .user] }
  | .exitThread =>
    { lists := true, joinFlags := true, emits := [.setJoined, .toExited],
      ends := [.sched .exitGate, .sched .exitDead] }
  | .joinThread x =>
    { joinwq := true, joinFlags := true, emits := [.joinCall, .joinReturn, .clearMustjoin],
      ends := [.sched (.joinLoop x), .run .user] }
  | .block | .wake _ => { ends := [.run .user] }
  | .msleep _ | .absmsleep _ => { ends := [.sched (.sleep .msleep)] }
  | .schedule => { ends := [.sched .user] }
  | .setSchedHook _ => { hook := true, ends := [.run .user] }
  | .initMainlwp _ => { cookie := true, ends := [.run .user] }
  | .clockSleep .. => { ends := [.sched (.sleep .clock), .sched .absmono] }
  | .«open» name mode =>
    { blk := true, emits := [.initBlkfront],
      ends := [.run .user, .sched (.devopenInit (devname2num name).toNat (.open mode))] }
  | .close _ => { blk := true, emits := [.shutdownBlkfront], ends := [.run .user, .sched .shutdownWait] }
  | .getfileinfo name =>
    { blk := true, emits := [.initBlkfront, .shutdownBlkfront],
      ends := [.run .user, .sched (.devopenInit (devname2num name).toNat .getfileinfo), .sched .shutdownWait] }
  | .bio a => { ends := [.run (.bioInit a)] }

/-- What the code after a `schedule()` may write, by the point it goes on at. -/
@[simp] def Cont.writes : Cont → Writes
  | .idle => { ends := [.sched .idle] }
  | .exitGate =>
    { lists := true, joinFlags := true, emits := [.setJoined, .toExited],
      ends := [.sched .exitGate, .sched .exitDead] }
  | .exitDead => { emits := [.printk], ends := [.sched .exitDead] }
  | .joinLoop x =>
    { joinwq := true, joinFlags := true, emits := [.joinReturn, .clearMustjoin],
      ends := [.sched (.joinLoop x), .run .user] }
  | .sleep _ | .absmono | .shutdownWait => { ends := [.run .user] }
  | .bioInit a => { ends := [.run (.bioLock a), .run (.bioSubmit a)] }
  | .bioLock a => { inited := true, ends := [.run (.bioSpawn a), .run (.bioSubmit a)] }
  | .bioSpawn a =>
    { lists := true, create := some .pumpStart, joinFlags := true, emits := [.created .pumpStart],
      ends := [.run (.bioSubmit a)] }
  | .bioSubmit a => { reqs := true, cv := true, emits := [.bioSubmit], ends := [.run (.bioSubmit a), .run .user] }
  | .pumpStart | .pumpTop | .pumpCv => { cv := true, ends := [.sched .pumpCv, .run .pumpPoll] }
  | .pumpResave => { ends := [.run .pumpPoll] }
  | .user | .devopenInit .. | .pumpPoll => { ends := [] }

/-- What `devopen` may write once `init_blkfront` answered. -/
def Writes.devopenDone : Writes :=
  { blk := true, emits := [.initDone, .shutdownBlkfront], ends := [.run .user, .sched .shutdownWait] }

/-- What a turn of the poll loop of `biothread` may write. -/
def Writes.poll : Writes :=
  { reqs := true, emits := [.biocomp, .biodone], ends := [.run .pumpPoll, .run .pumpTop, .sched .pumpResave] }

namespace Sys

section
variable {s s' : Sys}

/-- The event mask as the current thread's code leaves it. -/
structure IrqCur (s : Sys) : Prop where
  no_bug : s.halted ≠ some .schedIrqsDisabled
  masked : s.halted = none →
    (s.irqMasked = true ↔ (s.pc s.cur).isRun = false ∨ s.pc s.cur = .run .pumpPoll)
  sched_flags : (s.pc s.cur).isRun = false → s.schedFlags = false
  saved : s.pc s.cur = .run .pumpPoll → (s.ctx s.cur).savedIrq = false
  poll_run : (s.pc s.cur).cont = .pumpPoll → s.pc s.cur = .run .pumpPoll

theorem irqCur_iff : IrqCur s ↔ s.halted ≠ some .schedIrqsDisabled ∧ (s.halted = none →
    (s.irqMasked = true ↔ (s.ctx s.cur).pc.isRun = false ∨ (s.ctx s.cur).pc = .run .pumpPoll)) ∧
    ((s.ctx s.cur).pc.isRun = false → s.schedFlags = false) ∧
    ((s.ctx s.cur).pc = .run .pumpPoll → (s.ctx s.cur).savedIrq = false) ∧
    ((s.ctx s.cur).pc.cont = .pumpPoll → (s.ctx s.cur).pc = .run .pumpPoll) :=
  ⟨fun ⟨a, b, c, d, e⟩ => ⟨a, b, c, d, e⟩, fun ⟨a, b, c, d, e⟩ => ⟨a, b, c, d, e⟩⟩

theorem fresh_iff {th : Thread} {c : Ctx} : Fresh th c ↔ th.isRunnable = true ∧ th.wakeupTime = 0 ∧
    hasFlag th.flags threadJoined = false ∧ (c.pc = .fresh .user ∨ c.pc = .fresh .pumpStart) :=
  ⟨fun ⟨a, b, c, d⟩ => ⟨a, b, c, d⟩, fun ⟨a, b, c, d⟩ => ⟨a, b, c, d⟩⟩

/-! ## The footprint of a stretch of code -/

/-- **What a stretch of the current thread's code does**, as `w` allows: it
keeps the CPU and the clock; other threads keep their contexts, and their
descriptors but for a `wake`; it creates a thread only if `w.create` says so,
at `nextTid`; it writes only the globals and the cookie `w` names, logs only
events `w.emits`, and leaves the current thread at one of `w.ends`, with its
deadline and the event mask as sched.c pairs them. -/
structure Footprint (w : Writes) (s s' : Sys) : Prop where
  cur : s'.cur = s.cur
  now : s'.now = s.now
  ctx : ∀ u, u ≠ s.cur → u ≠ s.nextTid → s'.ctx u = s.ctx u
  th : ∀ u, u ≠ s.cur → u ≠ s.nextTid → Touch (s.th u) (s'.th u)
  kept : w.create = none → s'.nextTid = s.nextTid ∧ (s.cur ≠ s.nextTid →
    s'.ctx s.nextTid = s.ctx s.nextTid ∧ Touch (s.th s.nextTid) (s'.th s.nextTid))
  born : ∀ k, w.create = some k → s'.nextTid = s.nextTid + 1 ∧ (s.cur ≠ s.nextTid →
    Fresh (s'.th s.nextTid) (s'.ctx s.nextTid) ∧ (s'.ctx s.nextTid).pc = .fresh k)
  cookie : s.cur ≠ s.nextTid → w.cookie = false → (s'.th s.cur).cookie = (s.th s.cur).cookie
  hook : w.hook = false → s'.hook = s.hook
  blk : w.blk = false → s'.blk = s.blk
  inited : w.inited = false → s'.bio.inited = s.bio.inited
  reqs : w.reqs = false → s'.bio.total = s.bio.total ∧ s'.bio.outstanding = s.bio.outstanding ∧
    s'.bio.reqs = s.bio.reqs ∧ s'.bio.nextReq = s.bio.nextReq
  cv : w.cv = false → s'.bio.cvWaiters = s.bio.cvWaiters
  joinwq : w.joinwq = false → s'.joinwq = s.joinwq
  runq : w.lists = false → s'.runq = s.runq
  exited : w.lists = false → s'.exited = s.exited
  joinFlags : w.joinFlags = false → ∀ t, hasFlag (s'.th t).flags threadJoined = hasFlag (s.th t).flags threadJoined ∧
    hasFlag (s'.th t).flags threadMustjoin = hasFlag (s.th t).flags threadMustjoin
  log : ∃ ev, s'.log = s.log ++ ev ∧ ∀ e ∈ ev, e.kind ∈ w.emits
  ends : s'.pc s.cur ∈ w.ends
  sleep : (s.th s.cur).wakeupTime = 0 → SleepOk (s'.th s.cur) (s'.pc s.cur)
  mask : s.halted = none → IrqCur s → IrqCur s'

/-- `Footprint` as the proofs below compute it: `Fresh` and `SleepOk` spelled
out, and every program point read off the context. -/
theorem footprint_iff {w : Writes} : Footprint w s s' ↔ s'.cur = s.cur ∧ s'.now = s.now ∧
    (∀ u, u ≠ s.cur → u ≠ s.nextTid → s'.ctx u = s.ctx u) ∧
    (∀ u, u ≠ s.cur → u ≠ s.nextTid → Touch (s.th u) (s'.th u)) ∧
    (w.create = none → s'.nextTid = s.nextTid ∧ (s.cur ≠ s.nextTid →
      s'.ctx s.nextTid = s.ctx s.nextTid ∧ Touch (s.th s.nextTid) (s'.th s.nextTid))) ∧
    (∀ k, w.create = some k → s'.nextTid = s.nextTid + 1 ∧ (s.cur ≠ s.nextTid →
      (hasFlag (s'.th s.nextTid).flags runnableFlag = true ∧ (s'.th s.nextTid).wakeupTime = 0 ∧
        hasFlag (s'.th s.nextTid).flags threadJoined = false ∧
        ((s'.ctx s.nextTid).pc = .fresh .user ∨ (s'.ctx s.nextTid).pc = .fresh .pumpStart)) ∧
      (s'.ctx s.nextTid).pc = .fresh k)) ∧
    (s.cur ≠ s.nextTid → w.cookie = false → (s'.th s.cur).cookie = (s.th s.cur).cookie) ∧
    (w.hook = false → s'.hook = s.hook) ∧ (w.blk = false → s'.blk = s.blk) ∧
    (w.inited = false → s'.bio.inited = s.bio.inited) ∧
    (w.reqs = false → s'.bio.total = s.bio.total ∧ s'.bio.outstanding = s.bio.outstanding ∧
      s'.bio.reqs = s.bio.reqs ∧ s'.bio.nextReq = s.bio.nextReq) ∧
    (w.cv = false → s'.bio.cvWaiters = s.bio.cvWaiters) ∧ (w.joinwq = false → s'.joinwq = s.joinwq) ∧
    (w.lists = false → s'.runq = s.runq) ∧ (w.lists = false → s'.exited = s.exited) ∧
    (w.joinFlags = false → ∀ t, hasFlag (s'.th t).flags threadJoined = hasFlag (s.th t).flags threadJoined ∧
      hasFlag (s'.th t).flags threadMustjoin = hasFlag (s.th t).flags threadMustjoin) ∧
    (∃ ev, s'.log = s.log ++ ev ∧ ∀ e ∈ ev, e.kind ∈ w.emits) ∧ (s'.ctx s.cur).pc ∈ w.ends ∧
    ((s.th s.cur).wakeupTime = 0 → (s'.th s.cur).wakeupTime ≠ 0 →
      hasFlag (s'.th s.cur).flags runnableFlag = false ∧ (s'.ctx s.cur).pc.isSleep = true) ∧
    (s.halted = none → IrqCur s → IrqCur s') :=
  ⟨fun ⟨a, b, c, d, f, g, h, i, j, k, l, m, n, o, p, q, r, t, u, v⟩ =>
    ⟨a, b, c, d, f, fun k hk => (g k hk).imp_right fun h hc => (h hc).imp_left fresh_iff.1,
      h, i, j, k, l, m, n, o, p, q, r, t, u, v⟩,
   fun ⟨a, b, c, d, f, g, h, i, j, k, l, m, n, o, p, q, r, t, u, v⟩ =>
    ⟨a, b, c, d, f, fun k hk => (g k hk).imp_right fun h hc => (h hc).imp_left fresh_iff.2,
      h, i, j, k, l, m, n, o, p, q, r, t, u, v⟩⟩

/-! ### The entry points -/

/-- The gate of `exit_thread` and what follows it, from its `local_irq_save`,
in a thread that runs with events enabled. -/
theorem footprint_exitGate {k : Cont} (hpc : s.pc s.cur = .run k) (hk : k ≠ .pumpPoll) :
    Footprint (Cont.writes .exitGate) s (s.irqSave s.cur).exitGate := by
  simp only [pc] at hpc
  simp only [footprint_iff, exitGate]
  split <;> simp +contextual [hpc, hk, irqCur_iff, @eq_comm _ s.nextTid s.cur, apply_ite Thread.wakeupTime,
    apply_ite Thread.flags, apply_ite Thread.cookie, apply_ite (BitVec.getLsbD · 1), apply_ite (BitVec.getLsbD · 2)]

/-- `join_thread(x)`, up to its loop or its return. -/
theorem footprint_joinThread (hpc : s.pc s.cur = .run .user) (x : Tid) :
    Footprint (Call.writes (.joinThread x)) s (s.joinThread x) := by
  simp only [pc] at hpc
  simp only [footprint_iff, joinThread, joinTest]
  (repeat' split) <;> simp +contextual [hpc, irqCur_iff, @eq_comm _ s.nextTid s.cur, apply_ite Thread.wakeupTime,
    apply_ite Thread.flags, apply_ite Thread.cookie, apply_ite (BitVec.getLsbD · 1), apply_ite (BitVec.getLsbD · 2)]

/-- `rumpuser_clock_sleep`, up to its `schedule()`. -/
theorem footprint_clockSleep (hpc : s.pc s.cur = .run .user) (kind : RumpClock) (sec nsec : Int) :
    Footprint (Call.writes (.clockSleep kind sec nsec)) s (s.clockSleep kind sec nsec) := by
  simp only [pc] at hpc
  simp only [footprint_iff, clockSleep, dosleep]
  split <;> simp +contextual [hpc, irqCur_iff, @eq_comm _ s.nextTid s.cur, apply_ite Thread.wakeupTime,
    apply_ite Thread.flags, apply_ite Thread.cookie, apply_ite (BitVec.getLsbD · 1), apply_ite (BitVec.getLsbD · 2)]

/-- `rumpuser_open`, up to its return or the wait on `init_blkfront`. -/
theorem footprint_rumpuserOpen (hpc : s.pc s.cur = .run .user) (name : List UInt8) (mode : Nat) :
    Footprint (Call.writes (.open name mode)) s (s.rumpuserOpen name mode) := by
  simp only [pc] at hpc
  simp only [footprint_iff, rumpuserOpen, devopen, devopenReturn]
  (repeat' split) <;> simp +contextual [hpc, irqCur_iff, @eq_comm _ s.nextTid s.cur, apply_ite Thread.wakeupTime,
    apply_ite Thread.flags, apply_ite Thread.cookie, apply_ite (BitVec.getLsbD · 1), apply_ite (BitVec.getLsbD · 2)]

/-- `rumpuser_close`, up to its return or the wait on `shutdown_blkfront`. -/
theorem footprint_rumpuserClose (hpc : s.pc s.cur = .run .user) (fd : Int) :
    Footprint (Call.writes (.close fd)) s (s.rumpuserClose fd) := by
  simp only [pc] at hpc
  simp only [footprint_iff, rumpuserClose, closeEnd]
  (repeat' split) <;> simp +contextual [hpc, irqCur_iff, @eq_comm _ s.nextTid s.cur, apply_ite Thread.wakeupTime,
    apply_ite Thread.flags, apply_ite Thread.cookie, apply_ite (BitVec.getLsbD · 1), apply_ite (BitVec.getLsbD · 2)]

/-- `rumpuser_getfileinfo`, up to its return or a wait on the backend. -/
theorem footprint_rumpuserGetfileinfo (hpc : s.pc s.cur = .run .user) (name : List UInt8) :
    Footprint (Call.writes (.getfileinfo name)) s (s.rumpuserGetfileinfo name) := by
  simp only [pc] at hpc
  simp only [footprint_iff, rumpuserGetfileinfo, devopen, devopenReturn, closeEnd]
  (repeat' split) <;> simp +contextual [hpc, irqCur_iff, @eq_comm _ s.nextTid s.cur, apply_ite Thread.wakeupTime,
    apply_ite Thread.flags, apply_ite Thread.cookie, apply_ite (BitVec.getLsbD · 1), apply_ite (BitVec.getLsbD · 2)]

/-- **Each entry point**, called by the running thread, writes only what `Call.writes` allows. -/
theorem footprint_call {c : Call} (hpc : s.pc s.cur = .run .user) (h : s.call c = some s') :
    Footprint c.writes s s' := by
  cases c <;> simp only [call, Option.some.injEq, Option.ite_none_right_eq_some] at h
  case exitThread => exact h ▸ footprint_exitGate hpc nofun
  case joinThread x => exact h.2 ▸ footprint_joinThread hpc x
  case clockSleep kind sec nsec => exact h ▸ footprint_clockSleep hpc kind sec nsec
  case «open» name mode => exact h ▸ footprint_rumpuserOpen hpc name mode
  case close fd => exact h ▸ footprint_rumpuserClose hpc fd
  case getfileinfo name => exact h ▸ footprint_rumpuserGetfileinfo hpc name
  all_goals
    first | subst h | obtain ⟨-, rfl⟩ := h
    simp only [pc] at hpc
    simp only [footprint_iff, dosleep]
    (repeat' split) <;> simp +contextual [hpc, irqCur_iff, @eq_comm _ s.nextTid s.cur, apply_ite Thread.wakeupTime,
      apply_ite Thread.flags, apply_ite Thread.cookie, apply_ite (BitVec.getLsbD · 1), apply_ite (BitVec.getLsbD · 2)]

/-! ### The points after a `schedule()` -/

/-- The loop of `join_thread(x)`, on resumption. -/
theorem footprint_joinLoop {x : Tid} (hpc : s.pc s.cur = .run (.joinLoop x)) :
    Footprint (Cont.writes (.joinLoop x)) s
      ((({ s with joinwq := s.joinwq.erase (s.cur, x) } : Sys).irqSave s.cur).joinTest x) := by
  simp only [pc] at hpc
  simp only [footprint_iff, joinTest]
  split <;> simp +contextual [hpc, irqCur_iff, @eq_comm _ s.nextTid s.cur, apply_ite Thread.wakeupTime,
    apply_ite Thread.flags, apply_ite Thread.cookie, apply_ite (BitVec.getLsbD · 1), apply_ite (BitVec.getLsbD · 2)]

/-- The submission of `rumpuser_bio`, under `bio_mtx`. -/
theorem footprint_bioSubmit {a : BioArgs} (hpc : s.pc s.cur = .run (.bioSubmit a)) :
    Footprint (Cont.writes (.bioSubmit a)) s (s.bioSubmit a) := by
  simp only [pc] at hpc
  simp only [footprint_iff, bioSubmit]
  (repeat' split) <;> simp +contextual [hpc, irqCur_iff, @eq_comm _ s.nextTid s.cur, apply_ite Thread.wakeupTime,
    apply_ite Thread.flags, apply_ite Thread.cookie, apply_ite (BitVec.getLsbD · 1), apply_ite (BitVec.getLsbD · 2)]

/-- The head of `biothread`'s outer loop, whatever the waiters of `bio_cv`
were set to before it. -/
theorem footprint_pumpWait {k : Cont} (hpc : s.pc s.cur = .run k) (hk : k ≠ .pumpPoll) (l : List Tid) :
    Footprint (Cont.writes .pumpTop) s (({ s with bio := { s.bio with cvWaiters := l } } : Sys).pumpWait) := by
  simp only [pc] at hpc
  simp only [footprint_iff, pumpWait]
  split <;> simp +contextual [hpc, hk, irqCur_iff, @eq_comm _ s.nextTid s.cur, apply_ite Thread.wakeupTime,
    apply_ite Thread.flags, apply_ite Thread.cookie, apply_ite (BitVec.getLsbD · 1), apply_ite (BitVec.getLsbD · 2)]

/-- **The code after each `schedule()`** writes only what `Cont.writes` allows. -/
theorem footprint_cont {k : Cont} (hpc : s.pc s.cur = .run k) (h : s.cont k = some s') :
    Footprint k.writes s s' := by
  cases k <;> simp only [cont, Option.some.injEq, reduceCtorEq] at h <;> subst h
  case exitGate => exact footprint_exitGate hpc nofun
  case joinLoop x => exact footprint_joinLoop hpc
  case bioSubmit a => exact footprint_bioSubmit hpc
  case pumpStart => exact footprint_pumpWait hpc nofun s.bio.cvWaiters
  case pumpTop => exact footprint_pumpWait hpc nofun s.bio.cvWaiters
  case pumpCv => exact footprint_pumpWait hpc nofun _
  all_goals
    simp only [pc] at hpc
    simp only [footprint_iff, sleepReturn, bioInit, bioLock, bioSpawn]
    (repeat' split) <;> simp +contextual [hpc, irqCur_iff, @eq_comm _ s.nextTid s.cur, apply_ite Thread.wakeupTime,
      apply_ite Thread.flags, apply_ite Thread.cookie, apply_ite (BitVec.getLsbD · 1), apply_ite (BitVec.getLsbD · 2)]

/-! ### The answer of the backend -/

/-- **The end of `devopen`** writes only the slots and logs the backend's answer. -/
theorem footprint_devopenDone {num : Nat} {c : DevCaller} {res : Option BlkInfo}
    (hpc : s.pc s.cur = .run (.devopenInit num c)) : Footprint Writes.devopenDone s (s.devopenDone num c res) := by
  simp only [pc] at hpc
  simp only [footprint_iff, devopenDone, devopenReturn, closeEnd]
  (repeat' split) <;> simp +contextual [hpc, Writes.devopenDone, irqCur_iff, @eq_comm _ s.nextTid s.cur,
    apply_ite Thread.wakeupTime, apply_ite Thread.flags, apply_ite Thread.cookie, apply_ite (BitVec.getLsbD · 1), apply_ite (BitVec.getLsbD · 2)]

theorem Event.kind_of_isBio {e : Event} (h : e.isBio = true) : e.kind ∈ Writes.poll.emits := by
  cases e <;> simp_all [Event.isBio, Writes.poll]

/-- **A turn of the poll loop** writes only the records and the counters, and
logs completions. -/
theorem footprint_poll (hpc : s.pc s.cur = .run .pumpPoll) (cs : List (Nat × Int)) :
    Footprint Writes.poll s (s.poll cs) := by
  obtain ⟨b, l, hh, hs, hl, hb, hi, hw⟩ := pollSlots_frame cs (List.range nblkdev) s 0
  replace hl : ∀ e ∈ l, e.kind ∈ Writes.poll.emits := fun e he => Event.kind_of_isBio (hl e he)
  simp only [pc] at hpc
  simp only [footprint_iff, poll, hs]
  (repeat' split) <;> rcases hb with rfl | rfl <;> simp_all +contextual [irqCur_iff, Writes.poll,
    @eq_comm _ s.nextTid s.cur, apply_ite (BitVec.getLsbD · 1), apply_ite (BitVec.getLsbD · 2)]

/-- A stretch of the current thread's code, seen from the other threads. -/
structure SegFrame (s s' : Sys) : Prop where
  cur : s'.cur = s.cur
  ctx : ∀ u, u ≠ s.cur → u ≠ s.nextTid → s'.ctx u = s.ctx u
  th : ∀ u, u ≠ s.cur → u ≠ s.nextTid → Touch (s.th u) (s'.th u)
  /-- No thread is created, or one is, at `nextTid`. -/
  next : s'.nextTid = s.nextTid ∧ s'.ctx s.nextTid = s.ctx s.nextTid ∧
      Touch (s.th s.nextTid) (s'.th s.nextTid) ∨
    s'.nextTid = s.nextTid + 1 ∧ Fresh (s'.th s.nextTid) (s'.ctx s.nextTid)

/-- The code only appends to the log. -/
theorem Footprint.log_take {w : Writes} (hf : Footprint w s s') : s'.log.take s.log.length = s.log := by
  obtain ⟨ev, hev, -⟩ := hf.log; simp [hev]

/-- The events of kinds the code does not emit stay as they were. -/
theorem Footprint.filter_log {w : Writes} (hf : Footprint w s s') {p : Event → Bool}
    (hp : ∀ e, p e = true → e.kind ∉ w.emits) : s'.log.filter p = s.log.filter p := by
  obtain ⟨ev, hev, he⟩ := hf.log
  rw [hev, List.filter_append, List.append_right_eq_self, List.filter_eq_nil_iff]
  exact fun e hm hpe => hp e hpe (he e hm)

theorem Footprint.filterMap_log {w : Writes} (hf : Footprint w s s') {α : Type} {f : Event → Option α}
    (hp : ∀ e, (f e).isSome → e.kind ∉ w.emits) : s'.log.filterMap f = s.log.filterMap f := by
  obtain ⟨ev, hev, he⟩ := hf.log
  rw [hev, List.filterMap_append, List.append_right_eq_self, List.filterMap_eq_nil_iff]
  exact fun e hm => Option.not_isSome_iff_eq_none.1 fun hs => hp e hs (he e hm)

theorem Footprint.countP_log {w : Writes} (hf : Footprint w s s') {p : Event → Bool}
    (hp : ∀ e, p e = true → e.kind ∉ w.emits) : s'.log.countP p = s.log.countP p := by
  obtain ⟨ev, hev, he⟩ := hf.log
  rw [hev, List.countP_append, List.countP_eq_zero.2 fun e hm hpe => hp e hpe (he e hm), Nat.add_zero]

/-- Code that writes none of the block I/O globals leaves them as they were. -/
theorem Footprint.bio_eq {w : Writes} (hf : Footprint w s s') (hi : w.inited = false) (hr : w.reqs = false)
    (hv : w.cv = false) : s'.bio = s.bio := by
  obtain ⟨ht, ho, hq, hn⟩ := hf.reqs hr
  calc s'.bio = ⟨s'.bio.inited, s'.bio.total, s'.bio.outstanding, s'.bio.reqs, s'.bio.nextReq,
      s'.bio.cvWaiters⟩ := rfl
    _ = s.bio := by rw [hf.inited hi, ht, ho, hq, hn, hf.cv hv]

/-- The other threads stay where they were, the thread the code creates
included when it starts where the unborn do. -/
theorem Footprint.cont_eq {w : Writes} (hf : Footprint w s s')
    (hc : ∀ k, w.create = some k → (s.pc s.nextTid).cont = k) (u : Tid) (hu : u ≠ s.cur) :
    (s'.pc u).cont = (s.pc u).cont := by
  by_cases hn : u = s.nextTid
  · subst hn
    cases hk : w.create with
    | none => simp only [pc, ((hf.kept hk).2 (Ne.symm hu)).1]
    | some k => rw [hc k hk, pc, ((hf.born k hk).2 (Ne.symm hu)).2, Pc.cont_fresh]
  · simp only [pc, hf.ctx u hu hn]

/-- The footprint of a stretch of code, seen from the other threads. -/
theorem Footprint.segFrame {w : Writes} (hf : Footprint w s s') (hc : s.cur ≠ s.nextTid) : SegFrame s s' := by
  refine ⟨hf.cur, hf.ctx, hf.th, ?_⟩
  cases hk : w.create with
  | none => exact .inl ⟨(hf.kept hk).1, (hf.kept hk).2 hc⟩
  | some k => exact .inr ⟨(hf.born k hk).1, ((hf.born k hk).2 hc).1⟩

/-- **Every step but a pass is a stretch of the current thread's code**, as
`SegFrame` says. -/
theorem segFrame_of_step {a : Act} (hc : s.cur ≠ s.nextTid) (ha : a ≠ .pass)
    (h : step s a = some s') : SegFrame s s' := by
  cases a with
  | call c => obtain ⟨-, hpc, h⟩ := step_call h; exact (footprint_call hpc h).segFrame hc
  | run => obtain ⟨-, k, hpc, h⟩ := step_run h; exact (footprint_cont hpc h).segFrame hc
  | initDone res => obtain ⟨-, num, c, hpc, rfl⟩ := step_initDone h; exact (footprint_devopenDone hpc).segFrame hc
  | poll cs => obtain ⟨-, hpc, rfl⟩ := step_poll h; exact (footprint_poll hpc cs).segFrame hc
  | yield => obtain ⟨-, k, -, -, rfl⟩ := step_yield h; exact ⟨rfl, by simp +contextual, by simp, by simp [Ne.symm hc]⟩
  | pass => exact absurd rfl ha
  | tick d => obtain ⟨-, rfl⟩ := step_tick h; exact ⟨rfl, fun _ _ _ => rfl, by simp, by simp⟩
  | irq t =>
    obtain ⟨-, -, -, rfl⟩ := step_irq h
    exact ⟨rfl, fun _ _ _ => rfl, by simp +contextual, by simp +contextual⟩

/-! ## A pass -/

/-- The reap loop touches only the exited list and the log. -/
theorem foldl_reapOne_frame (p : Tid) : ∀ (l : List Tid) (s : Sys),
    ∃ e ev, l.foldl (fun s t => s.reapOne p t) s = { s with exited := e, log := s.log ++ ev } ∧
      ∀ x ∈ ev, x.isSched
  | [], s => ⟨s.exited, [], by simp, by simp⟩
  | t :: l, s => by
    obtain ⟨e, ev, h, hev⟩ := foldl_reapOne_frame p l (s.reapOne p t)
    rw [List.foldl_cons, h]
    simp only [reapOne]
    split
    · split
      · exact ⟨e, [.xfree t] ++ ev, by simp [funext_iff], by simpa [Event.isSched] using hev⟩
      · exact ⟨e, [.freePages (s.th t).stack, .xfree t] ++ ev, by simp [funext_iff],
          by simpa [Event.isSched] using hev⟩
    · exact ⟨e, ev, rfl, hev⟩

/-- **A pass that selects `n`**: the switch to `n`, then `n` on the CPU at the
point where it stood, and the reap loop, which touches only the exited list
and the log. -/
theorem pass_some_eq {n : Tid} (h : s.selected = some n) :
    ∃ e l, s.pass =
      { s.handoff n with exited := e, log := (s.handoff n).log ++ l,
                         ctx := Function.update s.ctx n { s.ctx n with pc := .run (s.pc n).cont } } ∧
      ∀ x ∈ l, x.isSched := by
  rw [pass_some h]
  have hc : (s.handoff n).ctx = s.ctx := rfl
  unfold resume
  split
  · next k hk =>
    obtain ⟨e, ev, hr, hev⟩ := foldl_reapOne_frame n (s.handoff n).exited (s.handoff n)
    simp only [pc, hc] at hk
    exact ⟨e, ev, by simp only [reap, hr, setPc, hc, pc, hk, Pc.cont], hev⟩
  · next k hk =>
    simp only [pc, hc] at hk
    exact ⟨(s.handoff n).exited, [], by simp only [setPc, hc, pc, hk, Pc.cont, List.append_nil], by simp⟩
  · next k hk =>
    simp only [pc, hc] at hk
    have hk' : ∀ c : Ctx, c.pc = .run k → ({ c with pc := .run c.pc.cont } : Ctx) = c := by
      rintro ⟨p, a, b, d⟩ rfl; rfl
    exact ⟨(s.handoff n).exited, [], by simp only [pc, hk' _ hk, Function.update_eq_self, List.append_nil]; rfl,
      by simp⟩

theorem pass_nextTid (s : Sys) : s.pass.nextTid = s.nextTid := by
  cases hs : s.selected with
  | none => rw [pass_none hs]; rfl
  | some n => obtain ⟨e, l, h, -⟩ := pass_some_eq hs; rw [h]; rfl

theorem pass_bio (s : Sys) : s.pass.bio = s.bio := by
  cases hs : s.selected with
  | none => rw [pass_none hs]; rfl
  | some n => obtain ⟨e, l, h, -⟩ := pass_some_eq hs; rw [h]; rfl

/-- A pass adds to the log only the hook, `block_domain` and the reap loop's calls. -/
theorem pass_log (s : Sys) : ∃ l, s.pass.log = s.log ++ l ∧ ∀ x ∈ l, x.isSched := by
  cases hs : s.selected with
  | none => exact ⟨_, by rw [pass_none hs]; rfl, by simp [Event.isSched]⟩
  | some n =>
    obtain ⟨e, l, h, hl⟩ := pass_some_eq hs
    refine ⟨(s.handoff n).log.drop s.log.length ++ l, by simp [h], fun x hx => ?_⟩
    rcases List.mem_append.1 hx with hx | hx
    · simp only [handoff_log, List.drop_left] at hx
      split at hx <;> simp_all [Event.isSched]
    · exact hl x hx

theorem pass_th (s : Sys) : s.pass.th = (scan s.now s.runq s.th (s.now + seconds 10)).1 := by
  cases hs : s.selected with
  | none => rw [pass_none hs, scan_th_none hs]; rfl
  | some n => obtain ⟨e, l, h, -⟩ := pass_some_eq hs; rw [h]; rfl

theorem pass_ctx (s : Sys) {u : Tid} (hu : s.selected ≠ some u) : s.pass.ctx u = s.ctx u := by
  cases hs : s.selected with
  | none => rw [pass_none hs]; rfl
  | some n =>
    obtain ⟨e, l, h, -⟩ := pass_some_eq hs
    rw [h]
    exact Function.update_noteq (fun hn : u = n => hu (hn ▸ hs)) _ _

theorem pass_pc_selected {n : Tid} (h : s.selected = some n) : s.pass.pc n = .run (s.pc n).cont := by
  obtain ⟨e, l, h, -⟩ := pass_some_eq h
  rw [h]; simp [pc]

theorem pass_cur {n : Tid} (h : s.selected = some n) : s.pass.cur = n := by
  obtain ⟨e, l, h, -⟩ := pass_some_eq h
  rw [h]; rfl

/-- A pass moves no thread to another point of its code. -/
theorem pass_cont (s : Sys) (u : Tid) : (s.pass.pc u).cont = (s.pc u).cont := by
  by_cases hu : s.selected = some u
  · rw [pass_pc_selected hu, Pc.cont_run]
  · simp only [pc, pass_ctx s hu]

end

end Sys
end RumpuserXen
